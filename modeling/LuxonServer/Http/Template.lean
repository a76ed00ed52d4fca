import LuxonServer.Http.Batch

/-! What the templates of a batch step stand for: the paths of the step are its raw path with a
value for each template at the template's place, and the values are parts of the segments that they
stand in. -/

namespace LuxonServer

namespace Batch

open Search Http

/-- A piece of a path whose templates are replaced. -/
inductive Piece where
  | literal (s : Bytes)
  | value (s : Bytes)
  deriving DecidableEq, Repr

/-- The text of a piece. -/
def Piece.text : Piece → Bytes
  | .literal s | .value s => s

/-- The path that some pieces make up. -/
def textOf (pieces : List Piece) : Bytes := pieces.flatMap Piece.text

section Places

/-- A path, cut at its templates: the text before the first one, and each one with the text after
it. -/
def cutFrom : Nat → Bytes → Bytes × List (Bytes × Bytes)
  | 0, text => (text, [])
  | fuel + 1, text =>
    match find opening text with
    | none => (text, [])
    | some i =>
      match find [closing] (text.drop i) with
      | none => (text, [])
      | some j =>
        let rest := cutFrom fuel (text.drop (i + (j + 1)))
        (text.take i, ((text.drop i).take (j + 1), rest.1) :: rest.2)

def cut (rawPath : Bytes) : Bytes × List (Bytes × Bytes) := cutFrom (rawPath.length + 1) rawPath

/-- The text that has been cut. -/
def rawText (lit : Bytes) (holes : List (Bytes × Bytes)) : Bytes :=
  lit ++ holes.flatMap fun hole => hole.1 ++ hole.2

/-- The pieces with one value for each template. -/
def filled : Bytes → List (Bytes × Bytes) → List Bytes → List Piece
  | lit, (_, after) :: holes, value :: values =>
    .literal lit :: .value value :: filled after holes values
  | lit, _, _ => [.literal lit]

/-- One value for each template, the last template outermost. -/
def combinations : List (List Bytes) → List (List Bytes)
  | [] => [[]]
  | values :: rest => (combinations rest).flatMap fun combination =>
    values.map fun value => value :: combination

/-- Each template is found at its own place, when those before it have been replaced; `before` is
what stands before the next one. -/
def Placed : Bytes → List (Bytes × Bytes) → List Bytes → Prop
  | before, (tmpl, after) :: holes, value :: values =>
    find tmpl (before ++ (tmpl ++ rawText after holes)) = some before.length ∧
      Placed (before ++ value ++ after) holes values
  | _, _, _ => True

/-- No template's text occurs before it, when those before it have been replaced. -/
def Unambiguous : Bytes → List (Bytes × Bytes) → List Bytes → Prop
  | before, (tmpl, after) :: holes, value :: values =>
    ¬tmpl <:+: before ∧ Unambiguous (before ++ value ++ after) holes values
  | _, _, _ => True

instance Unambiguous.decidable : ∀ before holes values, Decidable (Unambiguous before holes values)
  | before, (tmpl, after) :: holes, value :: values =>
    have := Unambiguous.decidable (before ++ value ++ after) holes values
    inferInstanceAs (Decidable (¬tmpl <:+: before ∧
      Unambiguous (before ++ value ++ after) holes values))
  | _, [], _ => .isTrue trivial
  | _, _ :: _, [] => .isTrue trivial

/-- Each hole is a template, which ends at its first `}`. -/
def Closed (holes : List (Bytes × Bytes)) : Prop :=
  ∀ hole ∈ holes, ∃ body, hole.1 = body ++ [closing] ∧ closing ∉ body

variable {lit before : Bytes} {holes : List (Bytes × Bytes)} {values : List Bytes} {text : Bytes}

theorem rawText_cons (lit tmpl after : Bytes) (holes : List (Bytes × Bytes)) :
    rawText lit ((tmpl, after) :: holes) = lit ++ (tmpl ++ rawText after holes) := by
  simp [rawText]

/-- The cuts are where the loop takes its templates. -/
theorem cutFrom_spec (fuel : Nat) (text : Bytes) :
    extractFrom fuel text = (cutFrom fuel text).2.map Prod.fst ∧
      rawText (cutFrom fuel text).1 (cutFrom fuel text).2 = text ∧
        Closed (cutFrom fuel text).2 := by
  have hempty : Closed [] := fun _ hhole => absurd hhole List.not_mem_nil
  induction fuel generalizing text with
  | zero => exact ⟨rfl, List.append_nil _, hempty⟩
  | succ fuel ih =>
    rw [extractFrom, cutFrom]
    cases hopening : find opening text with
    | none => exact ⟨rfl, List.append_nil _, hempty⟩
    | some i =>
      simp only
      cases hclosing : find [closing] (text.drop i) with
      | none => exact ⟨rfl, List.append_nil _, hempty⟩
      | some j =>
        obtain ⟨hextract, hraw, hclosed⟩ := ih (text.drop (i + (j + 1)))
        obtain ⟨hbody, hcut⟩ := find_singleton hclosing
        have hle := find_le_length hclosing
        have htmpl : (text.drop i).take (j + 1) = (text.drop i).take j ++ [closing] := by
          conv_lhs => rw [hcut]
          rw [List.take_append, List.length_take, Nat.min_eq_left hle, List.take_of_length_le (by
            rw [List.length_take]; omega)]
          simp
        refine ⟨?_, ?_, ?_⟩
        · simp only [List.map_cons, hextract]
        · simp only [rawText_cons, hraw]
          rw [← List.drop_drop, List.take_append_drop, List.take_append_drop]
        · intro hole hhole
          rcases List.mem_cons.mp hhole with rfl | hhole
          · exact ⟨_, htmpl, hbody⟩
          · exact hclosed hole hhole

theorem templates_eq (rawPath : Bytes) : templates rawPath = (cut rawPath).2.map Prod.fst :=
  (cutFrom_spec _ _).1

theorem rawText_cut (rawPath : Bytes) : rawText (cut rawPath).1 (cut rawPath).2 = rawPath :=
  (cutFrom_spec _ _).2.1

theorem closed_cut (rawPath : Bytes) : Closed (cut rawPath).2 := (cutFrom_spec _ _).2.2

/-- A template is found at its place exactly if its text does not occur before. -/
theorem placed_iff (hclosed : Closed holes) (before : Bytes) (values : List Bytes) :
    Placed before holes values ↔ Unambiguous before holes values := by
  induction holes generalizing before values with
  | nil => exact Iff.rfl
  | cons hole holes ih =>
    obtain ⟨tmpl, after⟩ := hole
    cases values with
    | nil => exact Iff.rfl
    | cons value values =>
      obtain ⟨body, htmpl, hbody⟩ := hclosed _ List.mem_cons_self
      exact and_congr (find_own_iff htmpl hbody)
        (ih (fun hole hhole => hclosed hole (List.mem_cons_of_mem _ hhole)) _ _)

/-- The replacements of one combination, one after the other. -/
def replaceAll : List Bytes → List Bytes → Bytes → Bytes
  | tmpl :: tmpls, value :: values, path => replaceAll tmpls values (replaceFirst tmpl value path)
  | _, _, path => path

theorem replaceAll_of_placed (front : Bytes) (hplaced : Placed (front ++ lit) holes values)
    (hlength : values.length = holes.length) :
    replaceAll (holes.map Prod.fst) values (front ++ rawText lit holes) =
      front ++ textOf (filled lit holes values) := by
  induction holes generalizing front lit values with
  | nil => simp [replaceAll, rawText, filled, textOf, Piece.text]
  | cons hole holes ih =>
    obtain ⟨tmpl, after⟩ := hole
    cases values with
    | nil => cases hlength
    | cons value values =>
      obtain ⟨hfind, hrest⟩ := hplaced
      have hstep : replaceFirst tmpl value (front ++ rawText lit ((tmpl, after) :: holes)) =
          front ++ lit ++ value ++ rawText after holes := by
        rw [rawText_cons, ← List.append_assoc, replaceFirst_of_find hfind, ← List.append_assoc]
      rw [List.map_cons, replaceAll, hstep, ih _ hrest (Nat.succ.inj hlength)]
      simp [filled, textOf, Piece.text]

end Places

section Segments

/-- What the segments of a path with templates are made of. -/
inductive Symbol where
  | byte (c : UInt8)
  | value (s : Bytes)
  deriving DecidableEq, Repr

def Symbol.text : Symbol → Bytes
  | .byte c => [c]
  | .value s => s

/-- The bytes of the literal pieces, decoded, and the values between them. -/
def symbols (pieces : List Piece) : List Symbol :=
  pieces.flatMap fun
    | .literal s => (urlDecode s).map Symbol.byte
    | .value s => [Symbol.value s]

/-- The parts of a path with templates, with the values in them. -/
def partsOf (pieces : List Piece) : List Bytes :=
  ((symbols pieces).splitOn (.byte slash)).map (·.flatMap Symbol.text)

/-- A value without `+` and without escapes. -/
def Piece.Plain : Piece → Prop
  | .literal _ => True
  | .value s => plus ∉ s ∧ hasEscape s = false

instance : DecidablePred Piece.Plain
  | .literal _ => .isTrue trivial
  | .value s => inferInstanceAs (Decidable (plus ∉ s ∧ hasEscape s = false))

/-- A value without `/`. -/
def Piece.InSegment : Piece → Prop
  | .literal _ => True
  | .value s => slash ∉ s

instance : DecidablePred Piece.InSegment
  | .literal _ => .isTrue trivial
  | .value s => inferInstanceAs (Decidable (slash ∉ s))

/-- No value has a `+` or an escape, and no escape begins in one piece and ends in another. -/
def Undisturbed : List Piece → Prop
  | [] => True
  | piece :: pieces =>
    piece.Plain ∧ crosses piece.text (textOf pieces) = false ∧ Undisturbed pieces

instance Undisturbed.decidable : DecidablePred Undisturbed
  | [] => .isTrue trivial
  | piece :: pieces =>
    have := Undisturbed.decidable pieces
    inferInstanceAs (Decidable (piece.Plain ∧ crosses piece.text (textOf pieces) = false ∧
      Undisturbed pieces))

/-- The values have nothing that a path gives a meaning to. -/
def Harmless (pieces : List Piece) : Prop :=
  Undisturbed pieces ∧ ∀ piece ∈ pieces, piece.InSegment

instance : DecidablePred Harmless := fun pieces =>
  inferInstanceAs (Decidable (Undisturbed pieces ∧ ∀ piece ∈ pieces, piece.InSegment))

variable {pieces : List Piece} {piece : Piece}

theorem textOf_cons (piece : Piece) (pieces : List Piece) :
    textOf (piece :: pieces) = piece.text ++ textOf pieces := rfl

/-- What a piece is to be decoded to. -/
def Piece.meant : Piece → Bytes
  | .literal s => urlDecode s
  | .value s => s

theorem symbols_text (pieces : List Piece) :
    (symbols pieces).flatMap Symbol.text = pieces.flatMap Piece.meant := by
  induction pieces with
  | nil => rfl
  | cons piece pieces ih =>
    rw [symbols, List.flatMap_cons, List.flatMap_append, List.flatMap_cons]
    refine congrArg₂ (· ++ ·) ?_ ih
    cases piece with
    | literal s =>
      show ((urlDecode s).map Symbol.byte).flatMap Symbol.text = urlDecode s
      rw [List.flatMap_map]
      exact List.flatMap_singleton' _
    | value s => exact List.append_nil _

/-- A piece decodes to what it is meant to be, or to less. -/
theorem length_urlDecode_text (piece : Piece) :
    (urlDecode piece.text).length ≤ piece.meant.length := by
  cases piece with
  | literal s => exact le_refl _
  | value s => exact (length_urlDecode s).1

theorem urlDecode_text_iff (piece : Piece) :
    urlDecode piece.text = piece.meant ↔ piece.Plain := by
  cases piece with
  | literal s => exact iff_of_true rfl trivial
  | value s => exact urlDecode_eq_self_iff s

theorem length_urlDecode_textOf (pieces : List Piece) :
    (urlDecode (textOf pieces)).length ≤ (pieces.flatMap Piece.meant).length := by
  induction pieces with
  | nil => exact le_refl _
  | cons piece pieces ih =>
    have happend := length_urlDecode_append_le piece.text (textOf pieces)
    have hpiece := length_urlDecode_text piece
    rw [textOf_cons, List.flatMap_cons, List.length_append]
    omega

/-- The path decodes piece by piece exactly if nothing disturbs that: otherwise it is shorter, or
has a space for a `+`. -/
theorem urlDecode_textOf_iff (pieces : List Piece) :
    urlDecode (textOf pieces) = pieces.flatMap Piece.meant ↔ Undisturbed pieces := by
  induction pieces with
  | nil => exact iff_of_true rfl trivial
  | cons piece pieces ih =>
    have hpiece := length_urlDecode_text piece
    have hrest := length_urlDecode_textOf pieces
    rw [textOf_cons, List.flatMap_cons, Undisturbed, ← ih, ← urlDecode_text_iff]
    constructor
    · intro heq
      have hlength := congrArg List.length heq
      rw [List.length_append] at hlength
      have hnone : crosses piece.text (textOf pieces) = false := by
        by_contra hsome
        have hlt := (joins piece.text (textOf pieces)).across (by simpa using hsome)
        omega
      rw [(joins _ _).apart hnone] at heq hlength
      rw [List.length_append] at hlength
      obtain ⟨hfirst, hothers⟩ := List.append_inj heq (by omega)
      exact ⟨hfirst, hnone, hothers⟩
    · rintro ⟨hfirst, hnone, hothers⟩
      rw [(joins _ _).apart hnone, hfirst, hothers]

theorem mem_symbols {s : Bytes} : Symbol.value s ∈ symbols pieces ↔ .value s ∈ pieces := by
  induction pieces with
  | nil => simp [symbols]
  | cons piece pieces ih =>
    rw [symbols, List.flatMap_cons, List.mem_append, List.mem_cons]
    refine or_congr ?_ ih
    cases piece <;> simp [eq_comm]

/-- A path splits into the parts that it is meant to have exactly if the values are harmless. -/
theorem splitOn_urlDecode_iff (pieces : List Piece) :
    (urlDecode (textOf pieces)).splitOn slash = partsOf pieces ↔ Harmless pieces := by
  have hslash : (Symbol.byte slash).text = [slash] := rfl
  have hmeant := symbols_text pieces
  have hvalues : (∀ y ∈ symbols pieces, y ≠ .byte slash → slash ∉ y.text) ↔
      ∀ piece ∈ pieces, piece.InSegment := by
    constructor
    · rintro h (s | s) hs
      · trivial
      · exact h _ (mem_symbols.mpr hs) nofun
    · rintro h (c | s) hy hne
      · exact fun hc => hne (congrArg Symbol.byte (List.mem_singleton.mp hc).symm)
      · exact h _ (mem_symbols.mp hy)
  constructor
  · intro hparts
    have hdecode : urlDecode (textOf pieces) = pieces.flatMap Piece.meant := by
      have hjoined := congrArg [slash].intercalate hparts
      rwa [List.intercalate_splitOn, partsOf, Split.intercalate_map_flatMap hslash, hmeant]
        at hjoined
    rw [hdecode, ← hmeant] at hparts
    exact ⟨(urlDecode_textOf_iff pieces).mp hdecode,
      hvalues.mp ((Split.splitOn_flatMap_iff hslash _).mp hparts)⟩
  · rintro ⟨hundisturbed, hclean⟩
    rw [(urlDecode_textOf_iff pieces).mpr hundisturbed, ← hmeant]
    exact (Split.splitOn_flatMap_iff hslash _).mpr (hvalues.mpr hclean)

theorem harmless_of_empty (hempty : textOf pieces = []) : Harmless pieces := by
  induction pieces with
  | nil => exact ⟨trivial, nofun⟩
  | cons piece pieces ih =>
    rw [textOf_cons, List.append_eq_nil_iff] at hempty
    obtain ⟨hundisturbed, hclean⟩ := ih hempty.2
    have hpiece : piece.Plain ∧ piece.InSegment := by
      cases piece with
      | literal s => exact ⟨trivial, trivial⟩
      | value s =>
        have hnothing : s = [] := hempty.1
        rw [hnothing]
        exact ⟨⟨List.not_mem_nil, rfl⟩, List.not_mem_nil⟩
    exact ⟨⟨hpiece.1, by rw [hempty.1]; rfl, hundisturbed⟩,
      List.forall_mem_cons.mpr ⟨hpiece.2, hclean⟩⟩

end Segments

section Substitution

variable {dump : Json → Except BatchError Bytes} {results : List Json}
  {split : Bytes → List Bytes} {rawPath : Bytes} {tmpls paths : List Bytes}
  {values : List (List Bytes)}

/-- The values of all templates. -/
def resolveAll (dump : Json → Except BatchError Bytes) (results : List Json) :
    List Bytes → Except BatchError (List (List Bytes))
  | [] => .ok []
  | tmpl :: tmpls =>
    match resolve dump results tmpl with
    | .error e => .error e
    | .ok values => (resolveAll dump results tmpls).map (values :: ·)

/-- The pieces of the raw path with a combination of values. -/
def piecesOf (rawPath : Bytes) (combination : List Bytes) : List Piece :=
  filled (cut rawPath).1 (cut rawPath).2 combination

/-- The paths of a step are the raw path with every combination of values, each value at the place
of its template, and each path has the parts that the template means. -/
structure Substitutes (split : Bytes → List Bytes) (rawPath : Bytes) (values : List (List Bytes))
    (paths : List Bytes) : Prop where
  paths : paths = (combinations values).map fun combination =>
    textOf (piecesOf rawPath combination)
  placed : ∀ combination ∈ combinations values, Placed (cut rawPath).1 (cut rawPath).2 combination
  parts : ∀ combination ∈ combinations values, textOf (piecesOf rawPath combination) ≠ [] →
    split (urlDecode (textOf (piecesOf rawPath combination))) =
      partsOf (piecesOf rawPath combination)

theorem resolveAll_cons {tmpl : Bytes} (hvalues : resolveAll dump results (tmpl :: tmpls) =
    .ok values) : ∃ first rest, resolve dump results tmpl = .ok first ∧
      resolveAll dump results tmpls = .ok rest ∧ values = first :: rest := by
  rw [resolveAll] at hvalues
  split at hvalues
  · cases hvalues
  · next first hfirst =>
    cases hrest : resolveAll dump results tmpls with
    | error e =>
      rw [hrest] at hvalues
      cases hvalues
    | ok rest =>
      rw [hrest] at hvalues
      cases hvalues
      exact ⟨first, rest, hfirst, rfl, rfl⟩

/-- The loop makes the replacements of every combination. -/
theorem expand_eq (hvalues : resolveAll dump results tmpls = .ok values) {before : List Bytes}
    (hpaths : expand dump results tmpls before = .ok paths) :
    paths = (combinations values).flatMap fun combination =>
      before.map (replaceAll tmpls combination) := by
  induction tmpls generalizing before values with
  | nil =>
    cases hvalues
    cases hpaths
    simp [combinations, replaceAll]
  | cons tmpl tmpls ih =>
    obtain ⟨first, rest, hfirst, hrest, rfl⟩ := resolveAll_cons hvalues
    obtain ⟨resolved, hresolved, hnext⟩ := expand_cons hpaths
    cases hfirst.symm.trans hresolved
    rw [ih hrest hnext, combinations, List.flatMap_assoc]
    simp only [newPaths, List.flatMap_map, List.map_flatMap, List.map_map]
    rfl

theorem length_resolveAll (hvalues : resolveAll dump results tmpls = .ok values) :
    values.length = tmpls.length := by
  induction tmpls generalizing values with
  | nil =>
    cases hvalues
    rfl
  | cons tmpl tmpls ih =>
    obtain ⟨first, rest, -, hrest, rfl⟩ := resolveAll_cons hvalues
    rw [List.length_cons, List.length_cons, ih hrest]

theorem length_of_mem_combinations {combination : List Bytes}
    (hmem : combination ∈ combinations values) : combination.length = values.length := by
  induction values generalizing combination with
  | nil =>
    rw [List.mem_singleton.mp hmem]
    rfl
  | cons first rest ih =>
    obtain ⟨later, hlater, hmem⟩ := List.mem_flatMap.mp hmem
    obtain ⟨value, -, rfl⟩ := List.mem_map.mp hmem
    rw [List.length_cons, List.length_cons, ih hlater]

/-- The paths of a step are what its raw path means exactly if, for every combination of values, no
template's text occurs before its place and the values are harmless in the path. -/
theorem substitutes_iff (hsplit : Splits split)
    (hvalues : resolveAll dump results (templates rawPath) = .ok values)
    (hpaths : pathsToExecute dump results rawPath = .ok paths) :
    Substitutes split rawPath values paths ↔
      ∀ combination ∈ combinations values,
        Unambiguous (cut rawPath).1 (cut rawPath).2 combination ∧
          Harmless (piecesOf rawPath combination) := by
  have hplaced := placed_iff (closed_cut rawPath) (cut rawPath).1
  have hparts : ∀ pieces, (textOf pieces ≠ [] → split (urlDecode (textOf pieces)) =
      partsOf pieces) ↔ Harmless pieces := by
    intro pieces
    by_cases hempty : textOf pieces = []
    · exact iff_of_true (fun hne => absurd hempty hne) (harmless_of_empty hempty)
    · rw [← splitOn_urlDecode_iff]
      have hdecoded : urlDecode (textOf pieces) ≠ [] := by
        obtain ⟨c, rest, htext⟩ := List.exists_cons_of_ne_nil hempty
        rw [htext]
        match rest with
        | [] | [_] => exact List.cons_ne_nil _ _
        | a :: b :: more =>
          rw [urlDecode]
          split
          · exact List.cons_ne_nil _ _
          · split <;> exact List.cons_ne_nil _ _
      rw [hsplit _ hdecoded]
      exact forall_prop_of_true hempty
  constructor
  · intro hsubstitutes combination hmem
    exact ⟨(hplaced combination).mp (hsubstitutes.placed combination hmem),
      (hparts _).mp (hsubstitutes.parts combination hmem)⟩
  · intro hclear
    have hown : ∀ combination ∈ combinations values,
        Placed (cut rawPath).1 (cut rawPath).2 combination :=
      fun combination hmem => (hplaced combination).mpr (hclear combination hmem).1
    refine ⟨?_, hown, fun combination hmem => (hparts _).mpr (hclear combination hmem).2⟩
    rw [expand_eq hvalues hpaths, templates_eq]
    conv_rhs => rw [List.map_eq_flatMap]
    refine List.flatMap_congr fun combination hmem => ?_
    have hlength : combination.length = (cut rawPath).2.length := by
      rw [length_of_mem_combinations hmem, length_resolveAll hvalues, templates_eq,
        List.length_map]
    have hreplace := replaceAll_of_placed [] (hown combination hmem) hlength
    rw [rawText_cut] at hreplace
    exact congrArg (fun path => [path]) hreplace

/-- The rooms of an app. -/
def roomsOf (ids : List String) : Json :=
  .array (ids.map fun id => .object [(ascii "id", .string (ascii id))])

/-- Two rooms with ordinary ids. -/
theorem substitutes_iff_rooms :
    Substitutes (·.splitOn slash) (ascii "/apps/rpg/games/{$steps/0/*/id}/actors")
      [[ascii "arena-1", ascii "arena-2"]]
      [ascii "/apps/rpg/games/arena-1/actors", ascii "/apps/rpg/games/arena-2/actors"] :=
  have hvalues : resolveAll noDump [roomsOf ["arena-1", "arena-2"]]
      (templates (ascii "/apps/rpg/games/{$steps/0/*/id}/actors")) =
        .ok [[ascii "arena-1", ascii "arena-2"]] := by
    decide +kernel
  (substitutes_iff (fun _ _ => rfl) hvalues (by decide +kernel)).mpr (by decide +kernel)

/-- A room whose id is the text of the next template: the second value replaces the first. -/
theorem not_substitutes_template :
    let rawPath := ascii "/apps/{$steps/0/0/id}/games/{$steps/0/1/id}"
    let results := [roomsOf ["{$steps/0/1/id}", "arena"]]
    resolveAll noDump results (templates rawPath) =
        .ok [[ascii "{$steps/0/1/id}"], [ascii "arena"]] ∧
      pathsToExecute noDump results rawPath = .ok [ascii "/apps/arena/games/{$steps/0/1/id}"] ∧
      ¬Substitutes (·.splitOn slash) rawPath [[ascii "{$steps/0/1/id}"], [ascii "arena"]]
        [ascii "/apps/arena/games/{$steps/0/1/id}"] := by
  intro rawPath results
  refine ⟨by decide +kernel, by decide +kernel, fun hsubstitutes => ?_⟩
  exact absurd hsubstitutes.paths (by decide +kernel)

end Substitution

end Batch

end LuxonServer
