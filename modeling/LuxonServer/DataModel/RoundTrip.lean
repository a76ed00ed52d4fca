import LuxonServer.DataModel

/-! A model decodes what it encodes, and fails on those requests only that lack a required parameter
or have a wrong value. -/

namespace LuxonServer

namespace MaybeOptional

variable {α β : Type} {optional : Bool}

theorem mapM_of (f : α → Option β) (a : α) :
    (of optional a).mapM f optional = (f a).map (of optional) := by
  cases optional with
  | true => rfl
  | false => exact Option.map_id'.symm

theorem toOption_eq_some {stored : MaybeOptional optional α} {a : α} :
    stored.toOption optional = some a ↔ stored = of optional a := by
  cases optional with
  | true => rfl
  | false => exact Option.some_inj

theorem optional_of_toOption_eq_none {stored : MaybeOptional optional α}
    (hnone : stored.toOption optional = none) : optional = true := by
  cases optional with
  | true => rfl
  | false => cases hnone

/-- A value that is not there is `nullopt`. -/
theorem mapM_nulloptOr {f : α → Option β} (a : α) {stored : MaybeOptional optional β}
    (hnone : stored.toOption optional = none) :
    (nulloptOr optional a).mapM f optional = some stored := by
  cases optional with
  | true => exact congrArg some hnone.symm
  | false => cases hnone

theorem exists_mapM_reset (f : α → Option β) (hoptional : optional = true)
    (a : MaybeOptional optional α) : ∃ b, (a.reset optional).mapM f optional = some b := by
  cases optional with
  | true => exact ⟨none, rfl⟩
  | false => cases hoptional

theorem exists_mapM_nulloptOr (f : α → Option β) (hoptional : optional = true) (a : α) :
    ∃ b, (nulloptOr optional a).mapM f optional = some b := by
  cases optional with
  | true => exact ⟨none, rfl⟩
  | false => cases hoptional

end MaybeOptional

variable {W : WireFormat} {F G : Parameter W → Type}

namespace Fields

/-- A function applied to each value. -/
def map (f : ∀ p, F p → G p) : (ps : List (Parameter W)) → Fields F ps → Fields G ps
  | [], .nil => .nil
  | p :: ps, .cons a rest => .cons (f p a) (map f ps rest)

/-- The values of a function. -/
def ofFn (f : ∀ p, F p) : (ps : List (Parameter W)) → Fields F ps
  | [] => .nil
  | p :: ps => .cons (f p) (ofFn f ps)

theorem map_eq_self {f : ∀ p, F p → F p} {ps : List (Parameter W)}
    (hf : ∀ p ∈ ps, ∀ a, f p a = a) (st : Fields F ps) : map f ps st = st := by
  induction ps with
  | nil => cases st; rfl
  | cons p ps ih =>
    cases st with | cons a rest =>
    rw [map, hf p List.mem_cons_self, ih fun q hq => hf q (List.mem_cons_of_mem p hq)]

theorem map_ofFn (f : ∀ p, F p → G p) (g : ∀ p, F p) (ps : List (Parameter W)) :
    map f ps (ofFn g ps) = ofFn (fun p => f p (g p)) ps := by
  induction ps with
  | nil => rfl
  | cons p ps ih => rw [ofFn, map, ih, ofFn]

theorem ofFn_congr {f g : ∀ p, F p} {ps : List (Parameter W)} (h : ∀ p ∈ ps, f p = g p) :
    ofFn f ps = ofFn g ps := by
  induction ps with
  | nil => rfl
  | cons p ps ih =>
    rw [ofFn, ofFn, h p List.mem_cons_self, ih fun q hq => h q (List.mem_cons_of_mem p hq)]

/-- A loop that treats the fields apart. -/
theorem foldl_map_ofFn {ε : Type} (f : ε → ∀ p, F p → F p) (g : ∀ p, F p)
    (ps : List (Parameter W)) (entries : List ε) :
    entries.foldl (fun st entry => map (f entry) ps st) (ofFn g ps) =
      ofFn (fun p => entries.foldl (fun a entry => f entry p a) (g p)) ps := by
  induction entries generalizing g with
  | nil => rfl
  | cons entry entries ih => rw [List.foldl_cons, map_ofFn, ih]; rfl

end Fields

namespace Parameter

/-- A parameter after the loop over a request that has `src` under its key. -/
def decoded (p : Parameter W) (operationCode : UInt8) (src : Option W.Value) : p.Decoding :=
  src.elim { view := p.makeDefault } fun v =>
    p.decodeOneInto operationCode v { view := p.makeDefault }

/-- A request without a value that is needed, or with one that does not fit. -/
def Rejects (p : Parameter W) (src : Option W.Value) : Prop :=
  ((∀ v ∈ src, W.isNull v = true) ∧ p.optional = false ∧ p.default = none) ∨
    ∃ v ∈ src, W.isNull v = false ∧ (W.getPtr p.wireType v = none ∨
      ∃ raw ∈ W.getPtr p.wireType v, ∃ e ∈ p.enumeration, e.contains raw = false)

/-- The value of a request is taken: it has the wire type, and it is in the enumeration. -/
def Accepts (p : Parameter W) (raw : W.Payload p.wireType) (src : W.Value) : Prop :=
  W.isNull src = false ∧ W.getPtr p.wireType src = some raw ∧
    ∀ e ∈ p.enumeration, e.contains raw = true

variable {p : Parameter W} {operationCode : UInt8} {parameters : ParameterList W}
  {raw : W.Payload p.wireType}

variable (operationCode) in
theorem decodeOneInto_of_accepts {src : W.Value} (h : p.Accepts raw src) (st : p.Decoding) :
    p.decodeOneInto operationCode src st =
      { st with
        seen := true
        view := .of p.optional (if p.byRef then .request else .value raw) } := by
  obtain ⟨hnull, hraw, henum⟩ := h
  unfold decodeOneInto
  simp only [hnull, Bool.false_eq_true, if_false, hraw]
  cases he : p.enumeration with
  | none => rfl
  | some e =>
    have hval : p.byRef = false := by simp [byRef, he]
    simp only [henum e he, if_true, hval, Bool.false_eq_true, if_false]

/-- A value is null, or taken, or rejected. -/
theorem rejects_or_accepts (p : Parameter W) (src : Option W.Value) :
    p.Rejects src ∨ (∀ v ∈ src, W.isNull v = true) ∧ (p.optional = true ∨ p.default ≠ none) ∨
      ∃ v ∈ src, ∃ raw, p.Accepts raw v := by
  by_cases hnull : ∀ v ∈ src, W.isNull v = true
  · by_cases hneeded : p.optional = false ∧ p.default = none
    · exact Or.inl (Or.inl ⟨hnull, hneeded⟩)
    · refine Or.inr (Or.inl ⟨hnull, ?_⟩)
      rw [not_and_or, Bool.not_eq_false] at hneeded
      exact hneeded
  · push Not at hnull
    obtain ⟨v, hv, hnull⟩ := hnull
    rw [ne_eq, Bool.not_eq_true] at hnull
    cases hraw : W.getPtr p.wireType v with
    | none => exact Or.inl (Or.inr ⟨v, hv, hnull, Or.inl hraw⟩)
    | some raw =>
      by_cases henum : ∀ e ∈ p.enumeration, e.contains raw = true
      · exact Or.inr (Or.inr ⟨v, hv, raw, hnull, hraw, henum⟩)
      · push Not at henum
        obtain ⟨e, he, hnot⟩ := henum
        rw [ne_eq, Bool.not_eq_true] at hnot
        exact Or.inl (Or.inr ⟨v, hv, hnull, Or.inr ⟨raw, hraw, e, he, hnot⟩⟩)

variable (operationCode) in
theorem checkOne_of_rejects {src : Option W.Value} (h : p.Rejects src) :
    (p.checkOne operationCode (p.decoded operationCode src)).isSome = true := by
  rcases h with ⟨hnull, hoptional, hdefault⟩ | ⟨v, hv, hnull, hbad⟩
  · cases src with
    | none => simp [decoded, checkOne, hoptional, hdefault]
    | some v => simp [decoded, decodeOneInto, checkOne, hnull v rfl, hoptional, hdefault]
  · cases hv
    rcases hbad with hraw | ⟨raw, hraw, e, he, hnot⟩
    · simp [decoded, decodeOneInto, checkOne, hnull, hraw]
    · simp [decoded, decodeOneInto, checkOne, hnull, Option.mem_def.mp hraw,
        Option.mem_def.mp he, hnot]

theorem read_held (hpresent : ∃ src, parameters.lookup p.wireKey = some src ∧ p.Accepts raw src) :
    p.read parameters (if p.byRef then .request else .value raw) = some raw := by
  obtain ⟨src, hsrc, haccepts⟩ := hpresent
  split
  · rw [read, hsrc, Option.bind_some, haccepts.2.1]
  · rfl

variable (operationCode) in
/-- A value that is taken is read back from the view. -/
theorem mapM_view_of_accepts {src : W.Value} (hsrc : parameters.lookup p.wireKey = some src)
    (haccepts : p.Accepts raw src) :
    p.checkOne operationCode (p.decoded operationCode (some src)) = none ∧
      (p.decoded operationCode (some src)).view.mapM (p.read parameters) p.optional =
        some (.of p.optional raw) := by
  have hdecoded := decodeOneInto_of_accepts operationCode haccepts
    { view := p.makeDefault }
  constructor
  · simp [decoded, hdecoded, checkOne]
  · simp only [decoded, Option.elim_some, hdecoded]
    rw [MaybeOptional.mapM_of, read_held ⟨src, hsrc, haccepts⟩, Option.map_some]

theorem mapM_makeDefault (hneedless : p.optional = true ∨ p.default ≠ none) :
    ∃ stored, p.makeDefault.mapM (p.read parameters) p.optional = some stored := by
  unfold makeDefault
  cases hdefault : p.default with
  | none =>
    exact MaybeOptional.exists_mapM_nulloptOr _ (hneedless.resolve_right (not_not.mpr hdefault)) _
  | some v =>
    have hread : p.read parameters (if p.byRef then .defaultObject else .value v) = some v := by
      split
      · exact hdefault
      · rfl
    exact ⟨_, by rw [MaybeOptional.mapM_of, hread, Option.map_some]⟩

variable (parameters operationCode) in
/-- A value that is not needed and not there. -/
theorem mapM_view_of_null {src : Option W.Value} (hnull : ∀ v ∈ src, W.isNull v = true)
    (hneedless : p.optional = true ∨ p.default ≠ none) :
    p.checkOne operationCode (p.decoded operationCode src) = none ∧
      ∃ stored, (p.decoded operationCode src).view.mapM (p.read parameters) p.optional =
        some stored := by
  have hneeded : (!(p.optional || p.default.isSome)) = false := by
    rcases hneedless with hoptional | hdefault
    · simp [hoptional]
    · simp [Option.isSome_iff_ne_none.mpr hdefault]
  cases src with
  | none => exact ⟨by simp [decoded, checkOne, hneeded], mapM_makeDefault hneedless⟩
  | some v =>
    have hv := hnull v rfl
    by_cases hoptional : p.optional = true
    · simp only [decoded, Option.elim_some, decodeOneInto, hv, hoptional, if_true, checkOne]
      exact ⟨rfl, MaybeOptional.exists_mapM_reset _ hoptional _⟩
    · have hdefault : p.default.isNone = false := Option.isNone_eq_false_iff.mpr
        (Option.isSome_iff_ne_none.mpr (hneedless.resolve_left hoptional))
      simp only [decoded, Option.elim_some, decodeOneInto, hv, hoptional, hdefault, if_true,
        Bool.false_eq_true, if_false, checkOne]
      exact ⟨rfl, mapM_makeDefault hneedless⟩

end Parameter

namespace Model

open Parameter

variable {ps : Model W} {operationCode : UInt8} {parameters : ParameterList W}

theorem initial_eq_ofFn (ps : Model W) :
    initial ps = Fields.ofFn (fun p => ({ view := p.makeDefault } : p.Decoding)) ps := by
  induction ps with
  | nil => rfl
  | cons p ps ih => rw [initial, ih, Fields.ofFn]

/-- The handler of a key acts on the parameter with the key. -/
theorem handle_eq_map (hkeys : (ps.map (·.wireKey)).Nodup) (key : UInt8) (src : W.Value)
    (st : Fields Decoding ps) : handle operationCode key src ps st =
      Fields.map (fun p st => if p.wireKey = key then p.decodeOneInto operationCode src st else st)
        ps st := by
  induction ps with
  | nil => cases st; rfl
  | cons p ps ih =>
    cases st with | cons a rest =>
    rw [List.map_cons, List.nodup_cons] at hkeys
    rw [handle, Fields.map]
    by_cases hlater : ∃ q ∈ ps, q.wireKey = key
    · obtain ⟨q, hq, hqkey⟩ := hlater
      have hp : p.wireKey ≠ key := fun hp => hkeys.1 (by
        rw [hp, ← hqkey]
        exact List.mem_map_of_mem hq)
      rw [if_pos (List.any_eq_true.mpr ⟨q, hq, by simpa using hqkey⟩), if_neg hp, ih hkeys.2]
    · have hrest : Fields.map (fun p st =>
          if p.wireKey = key then p.decodeOneInto operationCode src st else st) ps rest = rest :=
        Fields.map_eq_self (fun q hq a => if_neg fun hqkey => hlater ⟨q, hq, hqkey⟩) rest
      rw [if_neg (by simpa using hlater), hrest]
      split
      · next hp => rw [if_pos (by simpa using hp)]
      · next hp => rw [if_neg (by simpa using hp)]

/-- The loop of `decode` leaves each parameter as the value under its key makes it. -/
theorem foldl_handle (hkeys : (ps.map (·.wireKey)).Nodup) :
    parameters.entries.foldl (fun st entry => handle operationCode entry.1 entry.2 ps st)
        (initial ps) =
      Fields.ofFn (fun p => p.decoded operationCode (parameters.lookup p.wireKey)) ps := by
  simp only [handle_eq_map hkeys, initial_eq_ofFn]
  rw [Fields.foldl_map_ofFn]
  refine Fields.ofFn_congr fun p _ => ?_
  exact AList.foldl_ite_key (fun v st => p.decodeOneInto operationCode v st) p.wireKey _

theorem fail_ofFn (f : ∀ p : Parameter W, p.Decoding) :
    fail operationCode ps (Fields.ofFn f ps) = none ↔
      ∀ p ∈ ps, p.checkOne operationCode (f p) = none := by
  induction ps with
  | nil => simp [Fields.ofFn, fail]
  | cons p ps ih => rw [Fields.ofFn, fail, Option.or_eq_none_iff, ih, List.forall_mem_cons]

theorem views_ofFn (f : ∀ p : Parameter W, p.Decoding) :
    views ps (Fields.ofFn f ps) = Fields.ofFn (fun p => (f p).view) ps := by
  induction ps with
  | nil => rfl
  | cons p ps ih => rw [Fields.ofFn, views, ih, Fields.ofFn]

theorem decode_eq (hkeys : (ps.map (·.wireKey)).Nodup) : decode ps operationCode parameters =
    match fail operationCode ps
      (Fields.ofFn (fun p => p.decoded operationCode (parameters.lookup p.wireKey)) ps) with
    | some e => .error e
    | none =>
      .ok (Fields.ofFn (fun p => (p.decoded operationCode (parameters.lookup p.wireKey)).view) ps) := by
  unfold decode
  simp only [foldl_handle hkeys]
  cases fail operationCode ps
    (Fields.ofFn (fun p => p.decoded operationCode (parameters.lookup p.wireKey)) ps) with
  | none => exact congrArg Except.ok (views_ofFn _)
  | some e => rfl

/-- Only the values under the model's keys count. -/
theorem decode_congr (hkeys : (ps.map (·.wireKey)).Nodup) {parameters' : ParameterList W}
    (hsame : ∀ p ∈ ps, parameters.lookup p.wireKey = parameters'.lookup p.wireKey) :
    decode ps operationCode parameters = decode ps operationCode parameters' := by
  have hdecoded : Fields.ofFn
      (fun p => p.decoded operationCode (parameters.lookup p.wireKey)) ps =
      Fields.ofFn (fun p => p.decoded operationCode (parameters'.lookup p.wireKey)) ps :=
    Fields.ofFn_congr fun p hp => by rw [hsame p hp]
  rw [decode_eq hkeys, decode_eq hkeys, ← views_ofFn, ← views_ofFn, hdecoded]

theorem materialize_congr {parameters' : ParameterList W}
    (hsame : ∀ p ∈ ps, parameters.lookup p.wireKey = parameters'.lookup p.wireKey)
    (view : Fields Parameter.View ps) :
    materialize parameters ps view = materialize parameters' ps view := by
  induction ps with
  | nil => cases view; rfl
  | cons p ps ih =>
    cases view with | cons a rest =>
    have hread : p.read parameters = p.read parameters' := by
      funext held
      cases held with
      | request =>
        show (parameters.lookup p.wireKey).bind _ = (parameters'.lookup p.wireKey).bind _
        rw [hsame p List.mem_cons_self]
      | _ => rfl
    rw [materialize, materialize, hread, ih fun q hq => hsame q (List.mem_cons_of_mem p hq)]

/-- A request fails exactly if it has a rejected value. -/
theorem decode_eq_error_iff (hkeys : (ps.map (·.wireKey)).Nodup) :
    (∃ e, decode ps operationCode parameters = .error e) ↔
      ∃ p ∈ ps, p.Rejects (parameters.lookup p.wireKey) := by
  have hok : fail operationCode ps (Fields.ofFn
      (fun p => p.decoded operationCode (parameters.lookup p.wireKey)) ps) = none ↔
      ∀ p ∈ ps, ¬p.Rejects (parameters.lookup p.wireKey) := by
    rw [fail_ofFn]
    refine forall₂_congr fun p _ => ⟨fun hnone hrejects => ?_, fun hrejects => ?_⟩
    · have hsome := checkOne_of_rejects operationCode hrejects
      rw [hnone] at hsome
      cases hsome
    · rcases rejects_or_accepts p (parameters.lookup p.wireKey) with h | ⟨hnull, hneedless⟩ |
        ⟨v, hv, raw, haccepts⟩
      · exact absurd h hrejects
      · exact (mapM_view_of_null operationCode parameters hnull hneedless).1
      · rw [Option.mem_def.mp hv]
        exact (mapM_view_of_accepts operationCode hv haccepts).1
  rw [decode_eq hkeys]
  cases hfail : fail operationCode ps (Fields.ofFn
      (fun p => p.decoded operationCode (parameters.lookup p.wireKey)) ps) with
  | none =>
    refine iff_of_false (by rintro ⟨e, he⟩; cases he) ?_
    rintro ⟨p, hp, hrejects⟩
    exact hok.mp hfail p hp hrejects
  | some e =>
    refine iff_of_true ⟨e, rfl⟩ ?_
    by_contra hnone
    rw [hok.mpr fun p hp hrejects => hnone ⟨p, hp, hrejects⟩] at hfail
    cases hfail

/-- A view of a request that is accepted can be copied. -/
theorem exists_materialize {view : Fields Parameter.View ps}
    (hkeys : (ps.map (·.wireKey)).Nodup)
    (hview : decode ps operationCode parameters = .ok view) :
    ∃ stored, materialize parameters ps view = some stored := by
  have haccepted : ∀ p ∈ ps, ¬p.Rejects (parameters.lookup p.wireKey) := by
    intro p hp hrejects
    obtain ⟨e, he⟩ := (decode_eq_error_iff hkeys).mpr ⟨p, hp, hrejects⟩
    rw [hview] at he
    cases he
  obtain rfl : view =
      Fields.ofFn (fun p => (p.decoded operationCode (parameters.lookup p.wireKey)).view) ps := by
    rw [decode_eq hkeys] at hview
    split at hview
    · cases hview
    · exact (Except.ok.inj hview).symm
  clear hview hkeys
  induction ps with
  | nil => exact ⟨_, rfl⟩
  | cons p ps ih =>
    obtain ⟨others, hothers⟩ := ih fun q hq => haccepted q (List.mem_cons_of_mem p hq)
    obtain ⟨stored, hstored⟩ : ∃ stored,
        (p.decoded operationCode (parameters.lookup p.wireKey)).view.mapM (p.read parameters)
          p.optional = some stored := by
      rcases rejects_or_accepts p (parameters.lookup p.wireKey) with h | ⟨hnull, hneedless⟩ |
        ⟨v, hv, raw, haccepts⟩
      · exact absurd h (haccepted p List.mem_cons_self)
      · exact (mapM_view_of_null operationCode parameters hnull hneedless).2
      · rw [Option.mem_def.mp hv]
        exact ⟨_, (mapM_view_of_accepts operationCode hv haccepts).2⟩
    refine ⟨.cons stored others, ?_⟩
    rw [Fields.ofFn, materialize, hstored, hothers]
    rfl

/-- No value of a model encodes as null. -/
def NoneNull : (ps : Model W) → Fields Parameter.Stored ps → Prop
  | [], .nil => True
  | p :: ps, .cons stored rest =>
    (∀ v ∈ stored.toOption p.optional, W.isNull (W.make p.wireType v) = false) ∧ NoneNull ps rest

/-- A parameter list has the values of a model, and these are in their enumerations. -/
def Encodes (parameters : ParameterList W) : (ps : Model W) → Fields Parameter.Stored ps → Prop
  | [], .nil => True
  | p :: ps, .cons stored rest =>
    (parameters.lookup p.wireKey = (stored.toOption p.optional).map (W.make p.wireType) ∧
      ∀ v ∈ stored.toOption p.optional, ∀ e ∈ p.enumeration, e.contains v = true) ∧
    Encodes parameters ps rest

theorem encodes_of_encodeInto {stored : Fields Parameter.Stored ps} {acc : ParameterList W}
    (hkeys : (ps.map (·.wireKey)).Nodup) (hacc : ∀ p ∈ ps, acc.lookup p.wireKey = none)
    (hencode : encodeInto ps stored acc = .ok parameters) :
    Encodes parameters ps stored ∧
      ∀ key, (∀ p ∈ ps, p.wireKey ≠ key) → parameters.lookup key = acc.lookup key := by
  induction ps generalizing acc with
  | nil =>
    cases stored
    cases hencode
    exact ⟨trivial, fun _ _ => rfl⟩
  | cons p ps ih =>
    cases stored with | cons first rest =>
    rw [List.map_cons, List.nodup_cons] at hkeys
    have hother : ∀ q ∈ ps, q.wireKey ≠ p.wireKey := fun q hq heq =>
      hkeys.1 (heq ▸ List.mem_map_of_mem hq)
    rw [encodeInto] at hencode
    split at hencode
    · next hnone =>
      obtain ⟨hrest, hframe⟩ :=
        ih hkeys.2 (fun q hq => hacc q (List.mem_cons_of_mem p hq)) hencode
      refine ⟨⟨⟨?_, by simp [hnone]⟩, hrest⟩,
        fun key hkey => hframe key fun q hq => hkey q (List.mem_cons_of_mem p hq)⟩
      rw [hframe _ hother, hacc p List.mem_cons_self, hnone]
      rfl
    · next v hv =>
      split at hencode
      · cases hencode
      · next hvalid =>
        obtain ⟨hrest, hframe⟩ := ih hkeys.2 (fun q hq => by
          rw [AList.lookup_insert_ne (hother q hq), hacc q (List.mem_cons_of_mem p hq)]) hencode
        refine ⟨⟨⟨?_, ?_⟩, hrest⟩, fun key hkey => ?_⟩
        · rw [hframe _ hother, AList.lookup_insert, hv]
          rfl
        · intro v' hv' e he
          obtain rfl : v = v' := Option.some.inj (hv.symm.trans hv')
          rw [Option.filter_eq_none_iff] at hvalid
          simpa using hvalid e he
        · rw [hframe key fun q hq => hkey q (List.mem_cons_of_mem p hq),
            AList.lookup_insert_ne (hkey p List.mem_cons_self).symm]

variable (operationCode) in
/-- A parameter is read back from a list that has its value. -/
theorem mapM_view_of_encodes {p : Parameter W} {stored : p.Stored}
    (hdefault : p.optional = true → p.default = none)
    (hlookup : parameters.lookup p.wireKey =
      (stored.toOption p.optional).map (W.make p.wireType))
    (hvalid : ∀ v ∈ stored.toOption p.optional, ∀ e ∈ p.enumeration, e.contains v = true)
    (hnull : ∀ v ∈ stored.toOption p.optional, W.isNull (W.make p.wireType v) = false) :
    p.checkOne operationCode (p.decoded operationCode (parameters.lookup p.wireKey)) = none ∧
      (p.decoded operationCode (parameters.lookup p.wireKey)).view.mapM (p.read parameters)
        p.optional = some stored := by
  cases hstored : stored.toOption p.optional with
  | none =>
    have hoptional := MaybeOptional.optional_of_toOption_eq_none hstored
    rw [hstored, Option.map_none] at hlookup
    rw [hlookup]
    constructor
    · simp [decoded, checkOne, hoptional]
    · simp only [decoded, Option.elim_none, makeDefault, hdefault hoptional]
      exact MaybeOptional.mapM_nulloptOr _ hstored
  | some v =>
    have haccepts : p.Accepts v (W.make p.wireType v) :=
      ⟨hnull v hstored, W.getPtr_eq_some.mpr rfl, hvalid v hstored⟩
    rw [hstored, Option.map_some] at hlookup
    have hview := mapM_view_of_accepts operationCode hlookup haccepts
    rw [hlookup, MaybeOptional.toOption_eq_some.mp hstored]
    exact hview

/-- A model is read back from a list that has its values. -/
theorem decode_of_encodes {stored : Fields Parameter.Stored ps}
    (hkeys : (ps.map (·.wireKey)).Nodup)
    (hdefaults : ∀ p ∈ ps, p.optional = true → p.default = none)
    (hencodes : Encodes parameters ps stored) (hnull : NoneNull ps stored) :
    ∃ view, decode ps operationCode parameters = .ok view ∧
      materialize parameters ps view = some stored := by
  suffices hfields : fail operationCode ps (Fields.ofFn
      (fun p => p.decoded operationCode (parameters.lookup p.wireKey)) ps) = none ∧
      materialize parameters ps (Fields.ofFn
        (fun p => (p.decoded operationCode (parameters.lookup p.wireKey)).view) ps) =
        some stored by
    refine ⟨_, ?_, hfields.2⟩
    rw [decode_eq hkeys, hfields.1]
  clear hkeys
  induction ps with
  | nil => cases stored; exact ⟨rfl, rfl⟩
  | cons p ps ih =>
    cases stored with | cons first rest =>
    obtain ⟨⟨hlookup, hvalid⟩, hrest⟩ := hencodes
    obtain ⟨hfirst, hrestNull⟩ := hnull
    obtain ⟨hok, hothers⟩ := ih (fun q hq => hdefaults q (List.mem_cons_of_mem p hq)) hrest hrestNull
    obtain ⟨hcheck, hread⟩ := mapM_view_of_encodes operationCode
      (hdefaults p List.mem_cons_self) hlookup hvalid hfirst
    constructor
    · rw [Fields.ofFn, fail, hcheck, hok]
      rfl
    · rw [Fields.ofFn, materialize, hread, hothers]
      rfl

/-- A model with distinct keys whose optional parameters have no default: what is encoded is decoded
and copied back, parameters of other keys make no difference, and a request fails exactly if it
lacks a needed value or has one that does not fit. -/
theorem decode_encode (ps : Model W) (hkeys : (ps.map (·.wireKey)).Nodup)
    (hdefaults : ∀ p ∈ ps, p.optional = true → p.default = none) (operationCode : UInt8) :
    (∀ stored parameters, encode ps stored = .ok parameters → NoneNull ps stored →
      ∃ view, decode ps operationCode parameters = .ok view ∧
        materialize parameters ps view = some stored) ∧
    (∀ parameters parameters' : ParameterList W,
      (∀ p ∈ ps, parameters.lookup p.wireKey = parameters'.lookup p.wireKey) →
        decode ps operationCode parameters = decode ps operationCode parameters' ∧
        ∀ view, decode ps operationCode parameters = .ok view → ∃ stored,
          materialize parameters ps view = some stored ∧
            materialize parameters' ps view = some stored) ∧
    ∀ parameters : ParameterList W, (∃ e, decode ps operationCode parameters = .error e) ↔
      ∃ p ∈ ps, p.Rejects (parameters.lookup p.wireKey) := by
  refine ⟨fun stored parameters hencode hnull => ?_, fun parameters parameters' hsame => ?_,
    fun parameters => decode_eq_error_iff hkeys⟩
  · exact decode_of_encodes hkeys hdefaults
      (encodes_of_encodeInto hkeys (fun _ _ => rfl) hencode).1 hnull
  · refine ⟨decode_congr hkeys hsame, fun view hview => ?_⟩
    obtain ⟨stored, hstored⟩ := exists_materialize hkeys hview
    exact ⟨stored, hstored, by rw [← materialize_congr hsame, hstored]⟩

/-- The authentication of Ada, who names no version. -/
def adasAuth : Fields Parameter.Stored (standardAuth fun _ => "unknown") :=
  .cons "app" (.cons (0 : UInt8) (.cons "" (.cons none (.cons (some "ada") .nil))))

theorem decode_encode_adasAuth :
    ∃ parameters view, encode (standardAuth fun _ => "unknown") adasAuth = .ok parameters ∧
      decode (standardAuth fun _ => "unknown") 230 parameters = .ok view ∧
      materialize parameters (standardAuth fun _ => "unknown") view = some adasAuth := by
  have hnull : NoneNull (standardAuth fun _ => "unknown") adasAuth := by
    refine ⟨?_, ?_, ?_, ?_, ?_, trivial⟩ <;> intro v hv <;> cases hv <;> rfl
  obtain ⟨view, hview⟩ := (decode_encode (standardAuth fun _ => "unknown") (by decide)
    (by decide) 230).1 adasAuth _ rfl hnull
  exact ⟨_, view, rfl, hview⟩

end Model

end LuxonServer
