import LuxonServer.Lib.Split
import Mathlib.Data.UInt

/-! The paths of the HTTP server: `url_decode_in_place`, the percent-encoding of its clients, and
the segments of a path.  Strings are lists of bytes. -/

namespace LuxonServer

/-- A string of the HTTP server. -/
abbrev Bytes := List UInt8

/-- A string literal. -/
def ascii (s : String) : Bytes := s.toList.map fun c => UInt8.ofNat c.toNat

namespace Http

/-- `/`. -/
def slash : UInt8 := 0x2F

/-- `+`. -/
def plus : UInt8 := 0x2B

/-- `%`. -/
def percent : UInt8 := 0x25

/-- `is_hex`. -/
def isHex (c : UInt8) : Bool :=
  (0x30 ≤ c && c ≤ 0x39) || (0x61 ≤ c && c ≤ 0x66) || (0x41 ≤ c && c ≤ 0x46)

/-- The value of a hexadecimal digit. -/
def hexValue (c : UInt8) : UInt8 :=
  if c ≤ 0x39 then c - 0x30 else if c ≤ 0x46 then c - 0x41 + 10 else c - 0x61 + 10

/-- `url_decode_in_place`. -/
def urlDecode : Bytes → Bytes
  | c :: a :: b :: rest =>
    if c = plus then 0x20 :: urlDecode (a :: b :: rest)
    else if c = percent ∧ isHex a ∧ isHex b then
      (16 * hexValue a + hexValue b) :: urlDecode rest
    else c :: urlDecode (a :: b :: rest)
  -- too close to the end for an escape
  | c :: rest => (if c = plus then 0x20 else c) :: urlDecode rest
  | [] => []

section Encode

/-- What `encodeURIComponent` leaves as it is: letters, digits and `-_.!~*'()`. -/
def isUnreserved (c : UInt8) : Bool :=
  (0x30 ≤ c && c ≤ 0x39) || (0x41 ≤ c && c ≤ 0x5A) || (0x61 ≤ c && c ≤ 0x7A) ||
    (ascii "-_.!~*'()").contains c

/-- A digit of an escape. -/
def hexDigit (n : UInt8) : UInt8 := if n < 10 then 0x30 + n else 0x41 + (n - 10)

/-- `encodeURIComponent`, on bytes. -/
def percentEncode (s : Bytes) : Bytes :=
  s.flatMap fun c => if isUnreserved c then [c] else [percent, hexDigit (c / 16), hexDigit (c % 16)]

def apiPath (segments : List Bytes) : Bytes :=
  segments.flatMap fun s => slash :: percentEncode s

end Encode

/-- What `str_split` does at `/`.  Of the empty string it has one part or none. -/
def Splits (split : Bytes → List Bytes) : Prop := ∀ path ≠ [], split path = path.splitOn slash

/-- The old paths `/apps/{app}/lobbies/{name}/games/{game_id}/...` lose their lobby. -/
def redirectLegacy (segs : List Bytes) : List Bytes :=
  if segs.length ≥ 6 ∧ segs[0]? = some (ascii "apps") ∧ segs[2]? = some (ascii "lobbies") ∧
      segs[4]? = some (ascii "games") then
    segs.take 2 ++ segs.drop 4
  else segs

/-- The segments that `route_request` goes by: the path is decoded, split, rid of an empty first
part, and redirected.  Nothing is left of a path without parts. -/
def segmentsOf (split : Bytes → List Bytes) (path : Bytes) : Option (List Bytes) :=
  match split (urlDecode path) with
  | [] => none
  | first :: rest => some (redirectLegacy (if first = [] then rest else first :: rest))

section Decode

variable {c : UInt8} {rest : Bytes}

theorem urlDecode_cons_of_ne (hplus : c ≠ plus) (hpercent : c ≠ percent) (rest : Bytes) :
    urlDecode (c :: rest) = c :: urlDecode rest := by
  match rest with
  | [] | [_] => rw [urlDecode, if_neg hplus]; all_goals simp
  | a :: b :: rest => rw [urlDecode, if_neg hplus, if_neg fun h => hpercent h.1]

theorem urlDecode_escape {a b : UInt8} (ha : isHex a) (hb : isHex b) (rest : Bytes) :
    urlDecode (percent :: a :: b :: rest) =
      (16 * hexValue a + hexValue b) :: urlDecode rest := by
  rw [urlDecode, if_neg (by decide), if_pos ⟨rfl, ha, hb⟩]

theorem ne_of_isUnreserved (hc : isUnreserved c = true) : c ≠ plus ∧ c ≠ percent := by
  constructor <;> (rintro rfl; revert hc; decide)

theorem hexDigit_spec {n : UInt8} (hn : n < 16) :
    isHex (hexDigit n) = true ∧ hexValue (hexDigit n) = n := by
  have hdigits : ∀ k < 16, isHex (hexDigit (UInt8.ofNat k)) = true ∧
      hexValue (hexDigit (UInt8.ofNat k)) = UInt8.ofNat k := by decide
  have hdigit := hdigits n.toNat hn
  rwa [UInt8.ofNat_toNat] at hdigit

theorem digits_eq (c : UInt8) : c / 16 < 16 ∧ c % 16 < 16 ∧ 16 * (c / 16) + c % 16 = c := by
  have hc := c.toNat_lt
  refine ⟨?_, ?_, ?_⟩
  · rw [UInt8.lt_iff_toNat_lt, UInt8.toNat_div]
    show c.toNat / 16 < 16
    omega
  · rw [UInt8.lt_iff_toNat_lt, UInt8.toNat_mod]
    exact Nat.mod_lt _ (by decide)
  · apply UInt8.toNat_inj.mp
    rw [UInt8.toNat_add, UInt8.toNat_mul, UInt8.toNat_div, UInt8.toNat_mod]
    show (16 * (c.toNat / 16) % 2 ^ 8 + c.toNat % 16) % 2 ^ 8 = c.toNat
    omega

/-- The server reads back what a client encodes. -/
theorem urlDecode_percentEncode (s rest : Bytes) :
    urlDecode (percentEncode s ++ rest) = s ++ urlDecode rest := by
  induction s with
  | nil => rfl
  | cons c s ih =>
    rw [percentEncode, List.flatMap_cons, List.append_assoc]
    split
    · next hc =>
      obtain ⟨hplus, hpercent⟩ := ne_of_isUnreserved hc
      rw [List.singleton_append, urlDecode_cons_of_ne hplus hpercent]
      exact congrArg (c :: ·) ih
    · obtain ⟨hhigh, hlow, hsum⟩ := digits_eq c
      obtain ⟨hhex, hvalue⟩ := hexDigit_spec hhigh
      obtain ⟨hhex', hvalue'⟩ := hexDigit_spec hlow
      have hescape := urlDecode_escape hhex hhex' (percentEncode s ++ rest)
      rw [hvalue, hvalue', hsum, ih] at hescape
      exact hescape

theorem urlDecode_apiPath (segments : List Bytes) :
    urlDecode (apiPath segments) = segments.flatMap (slash :: ·) := by
  induction segments with
  | nil => rfl
  | cons s segments ih =>
    have hcons : apiPath (s :: segments) = slash :: (percentEncode s ++ apiPath segments) := rfl
    rw [hcons, urlDecode_cons_of_ne (by decide) (by decide), urlDecode_percentEncode, ih]
    rfl

end Decode

section Join

/-- Whether an escape begins in `front` and ends in `back`. -/
def crosses : Bytes → Bytes → Bool
  | [c], a :: b :: _ => c == percent && isHex a && isHex b
  | [c, d], a :: back =>
    (c == percent && isHex d && isHex a) || (d == percent && isHex a && back.head?.any isHex)
  | _ :: d :: e :: front, back => crosses (d :: e :: front) back
  | _, _ => false

/-- Whether there is an escape in a text. -/
def hasEscape : Bytes → Bool
  | c :: a :: b :: rest => (c == percent && isHex a && isHex b) || hasEscape (a :: b :: rest)
  | _ => false

variable {c : UInt8} {front back rest : Bytes}

/-- What becomes of a character that begins no escape. -/
def decoded (c : UInt8) : UInt8 := if c = plus then 0x20 else c

/-- An escape begins the text. -/
def escapes (c : UInt8) : Bytes → Bool
  | a :: b :: _ => c == percent && isHex a && isHex b
  | _ => false

theorem urlDecode_of_not_escapes (hescapes : escapes c rest = false) :
    urlDecode (c :: rest) = decoded c :: urlDecode rest := by
  match rest with
  | [] | [_] => rw [urlDecode]; all_goals simp [decoded]
  | a :: b :: more =>
    rw [urlDecode, decoded]
    split
    · rfl
    · rw [if_neg fun h => by simp [escapes, h.1, h.2.1, h.2.2] at hescapes]

theorem ne_of_isHex (hc : isHex c = true) : c ≠ plus ∧ c ≠ percent := by
  constructor <;> (rintro rfl; revert hc; decide)

theorem urlDecode_hex (hc : isHex c = true) (rest : Bytes) :
    urlDecode (c :: rest) = c :: urlDecode rest :=
  urlDecode_cons_of_ne (ne_of_isHex hc).1 (ne_of_isHex hc).2 rest

theorem crosses_hex (hc : isHex c = true) (front back : Bytes) :
    crosses (c :: front) back = crosses front back := by
  have hne : (c == percent) = false := by simpa using (ne_of_isHex hc).2
  match front with
  | [] => match back with
    | [] | [_] => rfl
    | a :: b :: back => simp [crosses, hne]
  | [d] => match back with
    | [] => rfl
    | [a] => simp [crosses, hne]
    | a :: b :: back => simp [crosses, hne]
  | _ :: _ :: _ => rfl

/-- A text that is cut where no escape is decodes part by part; the parts of an escape that is cut
are longer. -/
structure Joins (front back : Bytes) : Prop where
  apart : crosses front back = false →
    urlDecode (front ++ back) = urlDecode front ++ urlDecode back
  across : crosses front back = true →
    (urlDecode (front ++ back)).length < (urlDecode front).length + (urlDecode back).length

/-- A character that begins no escape goes first. -/
theorem Joins.cons (h : Joins front back) (hescapes : escapes c front = false)
    (hescapes' : escapes c (front ++ back) = false)
    (hcrosses : crosses (c :: front) back = crosses front back) : Joins (c :: front) back := by
  have hfront := urlDecode_of_not_escapes hescapes
  have hall := urlDecode_of_not_escapes hescapes'
  constructor
  · intro hnone
    rw [List.cons_append, hall, hfront, h.apart (hcrosses ▸ hnone), List.cons_append]
  · intro hsome
    have hlt := h.across (hcrosses ▸ hsome)
    rw [List.cons_append, hall, hfront, List.length_cons, List.length_cons]
    omega

/-- An escape that begins with the last character. -/
theorem joins_one (c : UInt8) (back : Bytes) : Joins [c] back := by
  have hlast : Joins [] back := ⟨fun _ => rfl, nofun⟩
  match back with
  | [] | [_] => exact hlast.cons rfl rfl rfl
  | a :: b :: back =>
    by_cases hescapes : escapes c (a :: b :: back) = true
    · have hcrosses : crosses [c] (a :: b :: back) = true := hescapes
      refine ⟨fun hnone => absurd (hnone.symm.trans hcrosses) Bool.false_ne_true, fun _ => ?_⟩
      simp only [escapes, Bool.and_eq_true, beq_iff_eq] at hescapes
      obtain ⟨⟨rfl, ha⟩, hb⟩ := hescapes
      rw [List.singleton_append, urlDecode_escape ha hb, urlDecode_hex ha, urlDecode_hex hb]
      simp only [urlDecode, List.length_cons, List.length_nil]
      omega
    · rw [Bool.not_eq_true] at hescapes
      exact hlast.cons rfl hescapes hescapes

/-- An escape that begins with one of the last two. -/
theorem joins_two (c d : UInt8) (back : Bytes) : Joins [c, d] back := by
  have hlast := joins_one d back
  match back with
  | [] => exact hlast.cons rfl rfl rfl
  | a :: back =>
    by_cases hescapes : escapes c (d :: a :: back) = true
    · simp only [escapes, Bool.and_eq_true, beq_iff_eq] at hescapes
      obtain ⟨⟨rfl, hd⟩, ha⟩ := hescapes
      have hcrosses : crosses [percent, d] (a :: back) = true := by simp [crosses, hd, ha]
      refine ⟨fun hnone => absurd (hnone.symm.trans hcrosses) Bool.false_ne_true, fun _ => ?_⟩
      rw [List.cons_append, List.singleton_append, urlDecode_escape hd ha, urlDecode_hex ha]
      simp [urlDecode]
    · rw [Bool.not_eq_true] at hescapes
      refine hlast.cons rfl hescapes ?_
      have hfirst : (c == percent && isHex d && isHex a) = false := hescapes
      cases back with
      | nil => simp [crosses, hfirst]
      | cons b back => simp [crosses, hfirst]

theorem joins : ∀ front back : Bytes, Joins front back
  | [], _ => ⟨fun _ => rfl, nofun⟩
  | [c], back => joins_one c back
  | [c, d], back => joins_two c d back
  | c :: a :: b :: front, back => by
    by_cases hescapes : escapes c (a :: b :: front) = true
    · have hrest := joins front back
      simp only [escapes, Bool.and_eq_true, beq_iff_eq] at hescapes
      obtain ⟨⟨rfl, ha⟩, hb⟩ := hescapes
      have hcrosses : crosses (percent :: a :: b :: front) back = crosses front back :=
        (crosses_hex ha _ back).trans (crosses_hex hb _ back)
      constructor
      · intro hnone
        simp only [List.cons_append, urlDecode_escape ha hb, hrest.apart (hcrosses ▸ hnone)]
      · intro hsome
        have hlt := hrest.across (hcrosses ▸ hsome)
        simp only [List.cons_append, urlDecode_escape ha hb, List.length_cons]
        omega
    · rw [Bool.not_eq_true] at hescapes
      exact (joins (a :: b :: front) back).cons hescapes hescapes rfl

theorem length_urlDecode_append_le (front back : Bytes) :
    (urlDecode (front ++ back)).length ≤ (urlDecode front).length + (urlDecode back).length := by
  cases hcrosses : crosses front back with
  | false => rw [(joins front back).apart hcrosses, List.length_append]
  | true => exact Nat.le_of_lt ((joins front back).across hcrosses)

/-- Decoding shortens a text that has an escape. -/
theorem length_urlDecode : ∀ s : Bytes, (urlDecode s).length ≤ s.length ∧
    (hasEscape s = true → (urlDecode s).length < s.length)
  | [] => ⟨le_refl _, nofun⟩
  | [_] => ⟨le_refl _, nofun⟩
  | [_, _] => ⟨le_refl _, nofun⟩
  | c :: a :: b :: rest => by
    by_cases hescapes : escapes c (a :: b :: rest) = true
    · obtain ⟨hle, -⟩ := length_urlDecode rest
      simp only [escapes, Bool.and_eq_true, beq_iff_eq] at hescapes
      obtain ⟨⟨rfl, ha⟩, hb⟩ := hescapes
      rw [urlDecode_escape ha hb]
      simp only [List.length_cons]
      omega
    · rw [Bool.not_eq_true] at hescapes
      obtain ⟨hle, hlt⟩ := length_urlDecode (a :: b :: rest)
      rw [urlDecode_of_not_escapes hescapes, List.length_cons, List.length_cons]
      refine ⟨Nat.succ_le_succ hle, fun hescape => Nat.succ_lt_succ (hlt ?_)⟩
      have hfirst : (c == percent && isHex a && isHex b) = false := hescapes
      simpa [hasEscape, hfirst] using hescape

theorem urlDecode_of_plain : ∀ s : Bytes, hasEscape s = false → urlDecode s = s.map decoded
  | [], _ => rfl
  | [_], _ => rfl
  | [_, _], _ => rfl
  | c :: a :: b :: rest, hescape => by
    rw [hasEscape, Bool.or_eq_false_iff] at hescape
    have hfirst : escapes c (a :: b :: rest) = false := hescape.1
    rw [urlDecode_of_not_escapes hfirst, urlDecode_of_plain _ hescape.2]
    rfl

/-- A text that decoding leaves as it is has no `+` and no escape. -/
theorem urlDecode_eq_self_iff (s : Bytes) :
    urlDecode s = s ↔ plus ∉ s ∧ hasEscape s = false := by
  have hdecoded : ∀ c, decoded c = c ↔ c ≠ plus := by
    intro c
    unfold decoded
    split
    · next hplus => exact iff_of_false (by rw [hplus]; decide) (not_not_intro hplus)
    · next hplus => exact iff_of_true rfl hplus
  have hmap : s.map decoded = s ↔ plus ∉ s := by
    conv_lhs => rhs; rw [← List.map_id s]
    rw [List.map_inj_left]
    exact ⟨fun h hplus => (hdecoded _).mp (h _ hplus) rfl,
      fun h c hc => (hdecoded c).mpr fun heq => h (heq ▸ hc)⟩
  constructor
  · intro hself
    have hescape : hasEscape s = false := by
      by_contra hsome
      have hlt := (length_urlDecode s).2 (by simpa using hsome)
      rw [hself] at hlt
      exact lt_irrefl _ hlt
    exact ⟨hmap.mp ((urlDecode_of_plain s hescape).symm.trans hself), hescape⟩
  · rintro ⟨hplus, hescape⟩
    exact (urlDecode_of_plain s hescape).trans (hmap.mpr hplus)

end Join

section Segments

variable {split : Bytes → List Bytes} {segments : List Bytes}

theorem splitOn_joined (hsegments : ∀ s ∈ segments, slash ∉ s) :
    (segments.flatMap (slash :: ·)).splitOn slash = [] :: segments := by
  induction segments with
  | nil => rfl
  | cons s segments ih =>
    have hrest := ih fun s hs => hsegments s (List.mem_cons_of_mem _ hs)
    rw [List.flatMap_cons, List.cons_append, List.splitOn_cons_eq_if_modifyHead, if_pos (by simp),
      Split.splitOn_append_of_not_mem (hsegments s List.mem_cons_self), hrest, List.modifyHead_cons,
      List.append_nil]

theorem segmentsOf_apiPath (hsplit : Splits split) (hne : segments ≠ [])
    (hsegments : ∀ s ∈ segments, slash ∉ s) :
    segmentsOf split (apiPath segments) = some (redirectLegacy segments) := by
  have hpath : urlDecode (apiPath segments) ≠ [] := by
    rw [urlDecode_apiPath]
    obtain ⟨s, rest, rfl⟩ := List.exists_cons_of_ne_nil hne
    exact List.cons_ne_nil _ _
  rw [segmentsOf, hsplit _ hpath, urlDecode_apiPath, splitOn_joined hsegments]
  rfl

theorem mem_of_mem_redirectLegacy {s : Bytes} (hs : s ∈ redirectLegacy segments) :
    s ∈ segments := by
  unfold redirectLegacy at hs
  split at hs
  · rcases List.mem_append.mp hs with hs | hs
    · exact List.mem_of_mem_take hs
    · exact List.mem_of_mem_drop hs
  · exact hs

/-- No segment that a request is routed by has a `/`. -/
theorem not_mem_segmentsOf (hsplit : Splits split) {path : Bytes} (hpath : urlDecode path ≠ [])
    (hsegments : segmentsOf split path = some segments) : ∀ s ∈ segments, slash ∉ s := by
  rw [segmentsOf, hsplit _ hpath] at hsegments
  split at hsegments
  · cases hsegments
  · next first rest hparts =>
    have hclean : ∀ s ∈ first :: rest, slash ∉ s := by
      rw [← hparts]
      exact fun s hs => Split.not_mem_of_mem_splitOn hs
    cases hsegments
    intro s hs
    have hfront := mem_of_mem_redirectLegacy hs
    split at hfront
    · exact hclean s (List.mem_cons_of_mem _ hfront)
    · exact hclean s hfront

end Segments

end Http

end LuxonServer
