import LuxonServer.Http.Json
import LuxonServer.Lib.Search
import Mathlib.Algebra.BigOperators.Group.List.Basic
import Mathlib.Tactic.Ring

/-! `execute_batch`: the steps of a batch, the templates in their paths, and the results.  `dump` is
the JSON library's, and `route` is `route_request`, with what it throws. -/

namespace LuxonServer

namespace Batch

open Search

/-- What a step throws: an exception of the JSON library, of `route_request`, or one of its own. -/
inductive BatchError where
  | json (e : JsonException)
  | route (what : Bytes)
  | invalid (what : String)
  deriving DecidableEq, Repr

section Templates

/-- How a template begins. -/
def opening : Bytes := ascii "\x7b$steps"

/-- How a template ends. -/
def closing : UInt8 := 0x7D

/-- The loop that extracts the templates, over the rest of the path; each round takes a part of
it. -/
def extractFrom : Nat → Bytes → List Bytes
  | 0, _ => []
  | fuel + 1, text =>
    match find opening text with
    | none => []
    | some i =>
      match find [closing] (text.drop i) with
      | none => []
      | some j => (text.drop i).take (j + 1) :: extractFrom fuel (text.drop (i + (j + 1)))

/-- All template strings of a path. -/
def templates (rawPath : Bytes) : List Bytes := extractFrom (rawPath.length + 1) rawPath

/-- Each round takes at least the template's own end, so the loop is over after as many rounds as
the text is long. -/
theorem extractFrom_eq {fuel fuel' : Nat} {text : Bytes} (hfuel : text.length < fuel)
    (hfuel' : text.length < fuel') : extractFrom fuel text = extractFrom fuel' text := by
  induction fuel generalizing fuel' text with
  | zero => cases hfuel
  | succ fuel ih =>
    obtain ⟨fuel', rfl⟩ : ∃ n, fuel' = n + 1 := ⟨fuel' - 1, by omega⟩
    rw [extractFrom, extractFrom]
    cases hopening : find opening text with
    | none => rfl
    | some i =>
      simp only
      cases hclosing : find [closing] (text.drop i) with
      | none => rfl
      | some j =>
        have hshort : (text.drop (i + (j + 1))).length < text.length := by
          have htext := congrArg List.length (find_singleton hclosing).2
          simp only [List.length_append, List.length_cons, List.length_drop] at htext
          rw [List.length_drop]
          omega
        simp only [ih (Nat.lt_of_lt_of_le hshort (Nat.le_of_lt_succ hfuel))
          (Nat.lt_of_lt_of_le hshort (Nat.le_of_lt_succ hfuel'))]

end Templates

section Expansion

variable (dump : Json → Except BatchError Bytes)

/-- What the JSON library throws is thrown on. -/
def liftJson {α : Type} : Except JsonException α → Except BatchError α
  | .ok a => .ok a
  | .error e => .error (.json e)

/-- `resolved_val`. -/
def resolvedVal : Json → Except BatchError Bytes
  | .string s => .ok s
  | j => dump j

/-- The values of the items that a wildcard stands for. -/
def resolveItems (subPtr : Bytes) : List Json → Except BatchError (List Bytes)
  | [] => .ok []
  | item :: items =>
    match (if subPtr = [] then .ok item else liftJson (item.at subPtr)) with
    | .error e => .error e
    | .ok val =>
      match resolvedVal dump val with
      | .error e => .error e
      | .ok value => (resolveItems subPtr items).map (value :: ·)

/-- The pointer of a template. -/
def pointerOf (tmpl : Bytes) : Bytes := (tmpl.drop 7).take (tmpl.length - 8)

/-- Whether a template has a wildcard, and where. -/
def wildcardPos (tmpl : Bytes) : Option Nat := find (ascii "/*") (pointerOf tmpl)

/-- The values of a template: one, or one for each item of the array at its wildcard. -/
def resolve (results : List Json) (tmpl : Bytes) : Except BatchError (List Bytes) :=
  match wildcardPos tmpl with
  | some pos =>
    match liftJson ((Json.array results).at ((pointerOf tmpl).take pos)) with
    | .error e => .error e
    | .ok (.array items) => resolveItems dump ((pointerOf tmpl).drop (pos + 2)) items
    | .ok _ => .error (.invalid "Wildcard base must be an array")
  | none =>
    match liftJson ((Json.array results).at (pointerOf tmpl)) with
    | .error e => .error e
    | .ok val => (resolvedVal dump val).map fun value => [value]

/-- `new_paths`. -/
def newPaths (values : List Bytes) (tmpl : Bytes) (paths : List Bytes) : List Bytes :=
  values.flatMap fun value => paths.map (replaceFirst tmpl value)

/-- The loop over the templates. -/
def expand (results : List Json) : List Bytes → List Bytes → Except BatchError (List Bytes)
  | [], paths => .ok paths
  | tmpl :: tmpls, paths =>
    match resolve dump results tmpl with
    | .error e => .error e
    | .ok values =>
      let paths := newPaths values tmpl paths
      if paths.length > 50 then .error (.invalid "Batch fan-out limit exceeded (max 50)")
      else expand results tmpls paths

/-- `paths_to_execute`. -/
def pathsToExecute (results : List Json) (rawPath : Bytes) : Except BatchError (List Bytes) :=
  expand dump results (templates rawPath) [rawPath]

end Expansion

section Execution

variable (dump : Json → Except BatchError Bytes) (route : Bytes → Bytes → Except BatchError Json)

/-- All generated paths, one after the other. -/
def executeAll (method : Bytes) : List Bytes → Except BatchError (List Json)
  | [] => .ok []
  | path :: paths =>
    match route method path with
    | .error e => .error e
    | .ok res => (executeAll method paths).map (res :: ·)

/-- What one answer adds to the result: an array its items, anything else itself. -/
def flattened : Json → List Json
  | .array items => items
  | res => [res]

/-- `step_result`. -/
def stepResult (results : List Json) (method rawPath : Bytes) : Except BatchError Json :=
  match pathsToExecute dump results rawPath with
  | .error e => .error e
  | .ok [path] => route method path
  | .ok paths =>
    (executeAll route method paths).map fun answers => .array (answers.flatMap flattened)

/-- An entry of `responses`. -/
inductive Response where
  | done (step : Nat) (body : Json)
  | failed (step : Nat) (e : BatchError)

/-- The loop over the steps; it ends at the first that fails.  What reading a step throws ends the
whole batch. -/
def executeSteps (results : List Json) (i : Nat) : List Json → Except BatchError (List Response)
  | [] => .ok []
  | step :: steps =>
    match liftJson (step.valueOr (ascii "method") (ascii "GET")) with
    | .error e => .error e
    | .ok method =>
      match liftJson (step.atKey (ascii "path")) with
      | .error e => .error e
      | .ok path =>
        match liftJson path.getString with
        | .error e => .error e
        | .ok rawPath =>
          match stepResult dump route results method rawPath with
          | .ok result =>
            (executeSteps (results ++ [result]) (i + 1) steps).map (.done i result :: ·)
          | .error e => .ok [.failed i e]

/-- `execute_batch`. -/
def executeBatch (batchReq : Json) : Except BatchError (List Response) :=
  match batchReq.field? (ascii "steps") with
  | some (.array steps) =>
    if steps.length > 25 then .error (.invalid "Batch limit exceeded (max 25 steps)")
    else executeSteps dump route [] 0 steps
  | _ => .error (.invalid "Batch request must contain a 'steps' array")

end Execution

section FanOut

variable {dump : Json → Except BatchError Bytes} {route : Bytes → Bytes → Except BatchError Json}
  {results answers items : List Json} {method rawPath tmpl : Bytes}
  {tmpls paths values : List Bytes}

/-- A step with a wildcard, whose paths can be generated and requested, has the answers in one
array. -/
def UniformShape (dump : Json → Except BatchError Bytes)
    (route : Bytes → Bytes → Except BatchError Json) (results : List Json)
    (method rawPath : Bytes) : Prop :=
  (∃ tmpl ∈ templates rawPath, (wildcardPos tmpl).isSome) →
    ∀ paths, pathsToExecute dump results rawPath = .ok paths →
      ∀ answers, executeAll route method paths = .ok answers →
        stepResult dump route results method rawPath = .ok (.array (answers.flatMap flattened))

/-- How many values a template has: one for each item of the array at its wildcard, or one. -/
def itemCount (results : List Json) (tmpl : Bytes) : Nat :=
  match wildcardPos tmpl with
  | some pos =>
    match (Json.array results).at ((pointerOf tmpl).take pos) with
    | .ok (.array items) => items.length
    | _ => 0
  | none => 1

/-- How many paths a step has. -/
def fanOut (results : List Json) (rawPath : Bytes) : Nat :=
  ((templates rawPath).map (itemCount results)).prod

theorem length_resolveItems {subPtr : Bytes}
    (hvalues : resolveItems dump subPtr items = .ok values) : values.length = items.length := by
  induction items generalizing values with
  | nil =>
    cases hvalues
    rfl
  | cons item items ih =>
    rw [resolveItems] at hvalues
    split at hvalues
    · cases hvalues
    · split at hvalues
      · cases hvalues
      · cases hrest : resolveItems dump subPtr items with
        | error e =>
          rw [hrest] at hvalues
          cases hvalues
        | ok rest =>
          rw [hrest] at hvalues
          cases hvalues
          rw [List.length_cons, List.length_cons, ih hrest]

theorem length_resolve (hvalues : resolve dump results tmpl = .ok values) :
    values.length = itemCount results tmpl := by
  unfold resolve at hvalues
  unfold itemCount
  split at hvalues
  · next pos _ =>
    cases hbase : (Json.array results).at ((pointerOf tmpl).take pos) with
    | error e =>
      rw [hbase] at hvalues
      cases hvalues
    | ok base =>
      rw [hbase] at hvalues
      cases base with
      | array items => exact length_resolveItems hvalues
      | _ => cases hvalues
  · split at hvalues
    · cases hvalues
    · next val _ =>
      cases hval : resolvedVal dump val with
      | error e =>
        rw [hval] at hvalues
        cases hvalues
      | ok value =>
        rw [hval] at hvalues
        cases hvalues
        rfl

theorem length_newPaths (values : List Bytes) (tmpl : Bytes) (paths : List Bytes) :
    (newPaths values tmpl paths).length = values.length * paths.length := by
  induction values with
  | nil => simp [newPaths]
  | cons value values ih =>
    rw [newPaths, List.flatMap_cons, List.length_append, List.length_map, List.length_cons,
      Nat.succ_mul, Nat.add_comm]
    exact congrArg (· + _) ih

/-- A round of the loop over the templates. -/
theorem expand_cons (hpaths : expand dump results (tmpl :: tmpls) paths = .ok values) :
    ∃ resolved, resolve dump results tmpl = .ok resolved ∧
      expand dump results tmpls (newPaths resolved tmpl paths) = .ok values := by
  rw [expand] at hpaths
  split at hpaths
  · cases hpaths
  · next resolved hresolved =>
    simp only at hpaths
    split at hpaths
    · cases hpaths
    · exact ⟨resolved, hresolved, hpaths⟩

theorem length_expand (hpaths : expand dump results tmpls paths = .ok values) :
    values.length = (tmpls.map (itemCount results)).prod * paths.length := by
  induction tmpls generalizing paths with
  | nil =>
    cases hpaths
    exact (Nat.one_mul _).symm
  | cons tmpl tmpls ih =>
    obtain ⟨resolved, hresolved, hrest⟩ := expand_cons hpaths
    rw [ih hrest, length_newPaths, length_resolve hresolved, List.map_cons, List.prod_cons]
    ring

theorem length_pathsToExecute (hpaths : pathsToExecute dump results rawPath = .ok paths) :
    paths.length = fanOut results rawPath := by
  rw [length_expand hpaths, fanOut, List.length_singleton, Nat.mul_one]

theorem length_executeAll (hanswers : executeAll route method paths = .ok answers) :
    answers.length = paths.length := by
  induction paths generalizing answers with
  | nil =>
    cases hanswers
    rfl
  | cons path paths ih =>
    rw [executeAll] at hanswers
    split at hanswers
    · cases hanswers
    · cases hrest : executeAll route method paths with
      | error e =>
        rw [hrest] at hanswers
        cases hanswers
      | ok rest =>
        rw [hrest] at hanswers
        cases hanswers
        rw [List.length_cons, List.length_cons, ih hrest]

/-- The result of a step in one case: a single answer is taken as it is. -/
theorem stepResult_eq (hpaths : pathsToExecute dump results rawPath = .ok paths)
    (hanswers : executeAll route method paths = .ok answers) :
    stepResult dump route results method rawPath =
      match answers with
      | [answer] => .ok answer
      | answers => .ok (.array (answers.flatMap flattened)) := by
  have hlength := length_executeAll hanswers
  unfold stepResult
  rw [hpaths]
  match paths, answers, hlength with
  | [], [], _ => rfl
  | [path], [answer], _ =>
    simp only [executeAll] at hanswers
    split at hanswers
    · cases hanswers
    · next res hres =>
      cases hanswers
      exact hres
  | _ :: _ :: _, _ :: _ :: _, _ =>
    simp only [hanswers]
    rfl

/-- The answers are in one array exactly if there are several, or none, or the single one is an
array. -/
theorem uniformShape_iff (hwildcard : ∃ tmpl ∈ templates rawPath, (wildcardPos tmpl).isSome)
    (hpaths : pathsToExecute dump results rawPath = .ok paths)
    (hanswers : executeAll route method paths = .ok answers) :
    UniformShape dump route results method rawPath ↔
      fanOut results rawPath ≠ 1 ∨ ∀ answer ∈ answers, answer.isArray = true := by
  have hresult := stepResult_eq hpaths hanswers
  have hcount : answers.length = fanOut results rawPath :=
    (length_executeAll hanswers).trans (length_pathsToExecute hpaths)
  rw [← hcount]
  constructor
  · intro hshape
    have heq := hshape hwildcard paths hpaths answers hanswers
    rw [hresult] at heq
    match answers with
    | [] => exact Or.inl (by decide)
    | [answer] =>
      have hanswer : answer = .array _ := Except.ok.inj heq
      refine Or.inr fun other hother => ?_
      rw [List.mem_singleton.mp hother, hanswer]
      rfl
    | _ :: _ :: _ => exact Or.inl (by simp)
  · intro hcases _ paths' hpaths' answers' hanswers'
    cases hpaths.symm.trans hpaths'
    cases hanswers.symm.trans hanswers'
    rw [hresult]
    match answers with
    | [] => rfl
    | [answer] =>
      have harray := hcases.resolve_left (by simp) answer List.mem_cons_self
      cases answer with
      | array items => simp [flattened]
      | _ => cases harray
    | _ :: _ :: _ => rfl

/-- The answer for an app. -/
def rpgInfo : Json := .object [(ascii "id", .string (ascii "rpg"))]

/-- A server with one app. -/
def rpgRoute (_ path : Bytes) : Except BatchError Json :=
  if path = ascii "/apps" then .ok (.array [rpgInfo])
  else if path = ascii "/apps/rpg" then .ok rpgInfo
  else .error (.route (ascii "App not found"))

/-- No value of these batches has to be dumped. -/
def noDump (_ : Json) : Except BatchError Bytes := .ok []

/-- Two items, two answers. -/
theorem uniformShape_iff_two :
    UniformShape noDump rpgRoute [.array [rpgInfo, rpgInfo]] (ascii "GET")
      (ascii "/apps/{$steps/0/*/id}") :=
  have hpaths : pathsToExecute noDump [.array [rpgInfo, rpgInfo]]
      (ascii "/apps/{$steps/0/*/id}") = .ok [ascii "/apps/rpg", ascii "/apps/rpg"] := by
    decide +kernel
  have hanswers : executeAll rpgRoute (ascii "GET") [ascii "/apps/rpg", ascii "/apps/rpg"] =
      .ok [rpgInfo, rpgInfo] := rfl
  (uniformShape_iff (by decide +kernel) hpaths hanswers).mpr (Or.inl (by decide +kernel))

/-- A step of a batch. -/
def getStep (path : String) : Json := .object [(ascii "path", .string (ascii path))]

/-- The steps that have failed. -/
def failures : List Response → List (Nat × BatchError)
  | [] => []
  | .done _ _ :: responses => failures responses
  | .failed i e :: responses => (i, e) :: failures responses

/-- One app: its answer is not in an array, and the next step fails over it. -/
theorem not_uniformShape_one :
    ¬UniformShape noDump rpgRoute [.array [rpgInfo]] (ascii "GET")
        (ascii "/apps/{$steps/0/*/id}") ∧
      (executeBatch noDump rpgRoute (.object [(ascii "steps", .array [getStep "/apps",
        getStep "/apps/{$steps/0/*/id}", getStep "/apps/{$steps/1/*/id}"])])).toOption.map
        failures = some [(2, .invalid "Wildcard base must be an array")] := by
  refine ⟨fun hshape => ?_, by decide +kernel⟩
  have hpaths : pathsToExecute noDump [.array [rpgInfo]] (ascii "/apps/{$steps/0/*/id}") =
      .ok [ascii "/apps/rpg"] := by decide +kernel
  have heq := hshape (by decide +kernel) _ hpaths [rpgInfo] (by rfl)
  have hsingle : (stepResult noDump rpgRoute [.array [rpgInfo]] (ascii "GET")
      (ascii "/apps/{$steps/0/*/id}")).toOption.map Json.isArray = some false := by
    decide +kernel
  rw [heq] at hsingle
  cases hsingle

end FanOut

end Batch

end LuxonServer
