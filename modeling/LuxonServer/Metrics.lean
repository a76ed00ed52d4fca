import LuxonServer.Lib.Run
import LuxonServer.Lib.Window
import Mathlib.Algebra.BigOperators.Group.List.Lemmas
import Mathlib.Algebra.Order.BigOperators.Group.List
import Mathlib.Algebra.Order.Group.Nat
import Mathlib.Data.List.TakeWhile
import Mathlib.Data.UInt

/-! The rolling metrics: `class Metric`, whose history forgets on every `add` the samples that no
query asks for, and whose queries walk back from the newest sample to the first that is too old.
Times are readings of the steady clock in nanoseconds. -/

namespace LuxonServer

/-- `Metric::Sample`. -/
structure Sample where
  timestamp : Int
  value : UInt32
  deriving DecidableEq, Repr

/-- `duration_cast<milliseconds>(now - timestamp).count()`, which truncates. -/
def Sample.ageMs (now : Int) (sample : Sample) : Int := (now - sample.timestamp).tdiv 1000000

/-- `class Metric`, the oldest sample of `history_` first. -/
structure Metric where
  history : List Sample := []
  deriving DecidableEq, Repr

namespace Metric

/-- `add`: the new sample goes to the back, and samples of more than a minute go from the front. -/
def add (now : Int) (value : UInt32) (m : Metric) : Metric :=
  { history := (m.history ++ [(⟨now, value⟩ : Sample)]).dropWhile fun sample : Sample =>
      sample.ageMs now > 60000 }

/-- `for_each_in_window`: the values from the newest back to the first that is too old. -/
def valuesInWindow (now : Int) (durationMs : UInt32) (m : Metric) : List UInt32 :=
  (m.history.reverse.takeWhile fun sample =>
    !decide (sample.ageMs now > (durationMs.toNat : Int))).map (·.value)

/-- `min`; `found` says whether the window has a sample. -/
def min (now : Int) (durationMs : UInt32) (m : Metric) : UInt32 :=
  let (minVal, found) := (m.valuesInWindow now durationMs).foldl
    (fun (minVal, _) value => (if value < minVal then value else minVal, true)) (0xFFFFFFFF, false)
  if found then minVal else 0

/-- `max`. -/
def max (now : Int) (durationMs : UInt32) (m : Metric) : UInt32 :=
  (m.valuesInWindow now durationMs).foldl
    (fun maxVal value => if value > maxVal then value else maxVal) 0

/-- `avg`; the total is a `uint64_t`, the count one of samples in memory. -/
def avg (now : Int) (durationMs : UInt32) (m : Metric) : UInt32 :=
  let (total, count) := (m.valuesInWindow now durationMs).foldl
    (fun (total, count) value => (total + value.toUInt64, count + 1)) ((0 : UInt64), 0)
  if count > 0 then UInt32.ofNat (total.toNat / count) else 0

end Metric

/-- The three queries. -/
inductive MetricQuery where
  | min
  | max
  | avg
  deriving DecidableEq, Repr

namespace MetricQuery

/-- What a query of the metric returns. -/
def ask (now : Int) (durationMs : UInt32) (m : Metric) : MetricQuery → UInt32
  | min => m.min now durationMs
  | max => m.max now durationMs
  | avg => m.avg now durationMs

/-- What a query is to return for the values in its window, in unbounded arithmetic. -/
def ofValues (values : List UInt32) : MetricQuery → Nat
  | min => ((values.map (·.toNat)).min?).getD 0
  | max => ((values.map (·.toNat)).max?).getD 0
  | avg => (values.map (·.toNat)).sum / values.length

/-- The same with a total of 64 bits. -/
def ofWords (values : List UInt32) : MetricQuery → Nat
  | avg => (values.map (·.toNat)).sum % 2 ^ 64 / values.length
  | query => query.ofValues values

end MetricQuery

/-- A call of a metric, with the clock's reading. -/
inductive MetricCall where
  | add (now : Int) (value : UInt32)
  | query (now : Int) (query : MetricQuery) (durationMs : UInt32)
  deriving DecidableEq, Repr

/-- When the call reads the clock. -/
def MetricCall.now : MetricCall → Int
  | add now _ | query now _ _ => now

/-- A metric, and every sample that was ever added to it. -/
structure MetricLog where
  metric : Metric := {}
  added : List Sample := []
  deriving DecidableEq, Repr

namespace MetricLog

/-- One call; a query changes nothing. -/
def step (l : MetricLog) : MetricCall → MetricLog
  | .add now value => { metric := l.metric.add now value, added := l.added ++ [⟨now, value⟩] }
  | .query _ _ _ => l

/-- The values of all samples ever added that are at most `durationMs` old, oldest first. -/
def windowValues (now : Int) (durationMs : UInt32) (l : MetricLog) : List UInt32 :=
  (l.added.filter fun sample => sample.ageMs now ≤ (durationMs.toNat : Int)).map (·.value)

/-- A query over at most a minute answers for all samples that were ever added. -/
def Answers (l : MetricLog) : MetricCall → Prop
  | .add _ _ => True
  | .query now query durationMs => durationMs.toNat ≤ 60000 →
      (query.ask now durationMs l.metric).toNat = query.ofValues (l.windowValues now durationMs)

/-- The same with a total of 64 bits, which is the answer in unbounded arithmetic while it fits. -/
def AnswersInWords (l : MetricLog) : MetricCall → Prop
  | .add _ _ => True
  | .query now query durationMs => durationMs.toNat ≤ 60000 →
      let values := l.windowValues now durationMs
      let answer := (query.ask now durationMs l.metric).toNat
      answer = query.ofWords values ∧
        ((values.map (·.toNat)).sum < 2 ^ 64 → answer = query.ofValues values)

end MetricLog

/-- Each call reads the clock no earlier than the calls before it. -/
def Nondecreasing (calls : List MetricCall) : Prop := calls.Pairwise fun a b => a.now ≤ b.now

instance (calls : List MetricCall) : Decidable (Nondecreasing calls) :=
  inferInstanceAs (Decidable (calls.Pairwise fun a b => a.now ≤ b.now))

section Queries

variable {values : List UInt32}

/-- The loop of `min`. -/
theorem foldl_minVal (minVal : UInt32) (found : Bool) :
    (values.foldl (fun (minVal, _) value => (if value < minVal then value else minVal, true))
      (minVal, found)).1.toNat = (values.map (·.toNat)).foldl min minVal.toNat := by
  induction values generalizing minVal found with
  | nil => rfl
  | cons value values ih =>
    have hstep : (if value < minVal then value else minVal).toNat =
        min minVal.toNat value.toNat := by
      by_cases hlt : value < minVal
      · have hle : value.toNat < minVal.toNat := UInt32.lt_iff_toNat_lt.mp hlt
        rw [if_pos hlt, Nat.min_eq_right (by omega)]
      · have hle : minVal.toNat ≤ value.toNat :=
          UInt32.le_iff_toNat_le.mp (UInt32.not_lt.mp hlt)
        rw [if_neg hlt, Nat.min_eq_left hle]
    rw [List.foldl_cons, ih, hstep, List.map_cons, List.foldl_cons]

theorem foldl_found (minVal : UInt32) (found : Bool) :
    (values.foldl (fun (minVal, _) value => (if value < minVal then value else minVal, true))
      (minVal, found)).2 = (found || !values.isEmpty) := by
  induction values generalizing minVal found with
  | nil => simp
  | cons value values ih => rw [List.foldl_cons, ih]; simp

/-- The loop of `max`. -/
theorem foldl_maxVal (maxVal : UInt32) :
    (values.foldl (fun maxVal value => if value > maxVal then value else maxVal) maxVal).toNat =
      (values.map (·.toNat)).foldl max maxVal.toNat := by
  induction values generalizing maxVal with
  | nil => rfl
  | cons value values ih =>
    have hstep : (if value > maxVal then value else maxVal).toNat =
        max maxVal.toNat value.toNat := by
      by_cases hlt : value > maxVal
      · have hle : maxVal.toNat < value.toNat := UInt32.lt_iff_toNat_lt.mp hlt
        rw [if_pos hlt, Nat.max_eq_right (by omega)]
      · have hle : value.toNat ≤ maxVal.toNat :=
          UInt32.le_iff_toNat_le.mp (UInt32.not_lt.mp hlt)
        rw [if_neg hlt, Nat.max_eq_left hle]
    rw [List.foldl_cons, ih, hstep, List.map_cons, List.foldl_cons]

/-- The loop of `avg`: the total wraps. -/
theorem foldl_total (total : UInt64) (count : Nat) :
    values.foldl (fun (total, count) value => (total + value.toUInt64, count + 1)) (total, count) =
      (UInt64.ofNat (total.toNat + (values.map (·.toNat)).sum), count + values.length) := by
  induction values generalizing total count with
  | nil => simp
  | cons value values ih =>
    have htotal : UInt64.ofNat ((total + value.toUInt64).toNat + (values.map (·.toNat)).sum) =
        UInt64.ofNat (total.toNat + ((value :: values).map (·.toNat)).sum) := by
      rw [List.map_cons, List.sum_cons, ← Nat.add_assoc, UInt64.ofNat_add,
        UInt64.ofNat_add _ (List.sum _),
        UInt64.ofNat_toNat, UInt64.ofNat_add, UInt64.ofNat_toNat]
      congr 2
      exact UInt64.toNat_inj.mp (by simp)
    rw [List.foldl_cons, ih, htotal, List.length_cons, Nat.add_assoc, Nat.add_comm 1]

end Queries

/-- The least value does not depend on the order. -/
theorem ofValues_reverse (query : MetricQuery) (values : List UInt32) :
    query.ofValues values.reverse = query.ofValues values := by
  cases query with
  | min =>
    have hmin : ((values.map (·.toNat)).reverse).min? = (values.map (·.toNat)).min? := by
      cases hvalues : (values.map (·.toNat)).min? with
      | none => simpa using hvalues
      | some least =>
        obtain ⟨hmem, hle⟩ := List.min?_eq_some_iff.mp hvalues
        exact List.min?_eq_some_iff.mpr ⟨List.mem_reverse.mpr hmem,
          fun b hb => hle b (List.mem_reverse.mp hb)⟩
    simp only [MetricQuery.ofValues, List.map_reverse, hmin]
  | max =>
    have hmax : ((values.map (·.toNat)).reverse).max? = (values.map (·.toNat)).max? := by
      cases hvalues : (values.map (·.toNat)).max? with
      | none => simpa using hvalues
      | some greatest =>
        obtain ⟨hmem, hle⟩ := List.max?_eq_some_iff.mp hvalues
        exact List.max?_eq_some_iff.mpr ⟨List.mem_reverse.mpr hmem,
          fun b hb => hle b (List.mem_reverse.mp hb)⟩
    simp only [MetricQuery.ofValues, List.map_reverse, hmax]
  | avg => simp [MetricQuery.ofValues, List.sum_reverse]

namespace Metric

variable {m : Metric} {now : Int} {durationMs : UInt32}

theorem min_toNat : (m.min now durationMs).toNat =
    MetricQuery.min.ofValues (m.valuesInWindow now durationMs) := by
  unfold min MetricQuery.ofValues
  generalize m.valuesInWindow now durationMs = values
  simp only [foldl_found, Bool.false_or]
  cases values with
  | nil => rfl
  | cons value values =>
    have hfirst : Min.min (0xFFFFFFFF : UInt32).toNat value.toNat = value.toNat :=
      Nat.min_eq_right (Nat.le_of_lt_succ value.toNat_lt)
    rw [if_pos (by simp), foldl_minVal, List.map_cons, List.foldl_cons, hfirst, List.min?_cons',
      Option.getD_some]

theorem max_toNat : (m.max now durationMs).toNat =
    MetricQuery.max.ofValues (m.valuesInWindow now durationMs) := by
  unfold max MetricQuery.ofValues
  rw [foldl_maxVal]
  cases m.valuesInWindow now durationMs with
  | nil => rfl
  | cons value values =>
    have hfirst : Max.max (0 : UInt32).toNat value.toNat = value.toNat :=
      Nat.max_eq_right (Nat.zero_le _)
    rw [List.map_cons, List.foldl_cons, hfirst, List.max?_cons', Option.getD_some]

/-- The mean that `avg` returns: of the total as 64 bits hold it. -/
theorem avg_toNat : (m.avg now durationMs).toNat =
    ((m.valuesInWindow now durationMs).map (·.toNat)).sum % 2 ^ 64 /
      (m.valuesInWindow now durationMs).length := by
  unfold avg
  generalize m.valuesInWindow now durationMs = values
  have hsum : (values.map (·.toNat)).sum ≤ values.length * (2 ^ 32 - 1) := by
    have hle := List.sum_le_card_nsmul (values.map (·.toNat)) (2 ^ 32 - 1) (by
      intro n hn
      obtain ⟨value, -, rfl⟩ := List.mem_map.mp hn
      exact Nat.le_of_lt_succ value.toNat_lt)
    simpa using hle
  have hzero : (0 : UInt64).toNat = 0 := rfl
  simp only [foldl_total, hzero, Nat.zero_add, UInt64.toNat_ofNat']
  cases values with
  | nil => rfl
  | cons value values =>
    have hpos : 0 < (value :: values).length := by simp
    have hmod := Nat.mod_le ((value :: values).map (·.toNat)).sum (2 ^ 64)
    have hmean : ((value :: values).map (·.toNat)).sum % 2 ^ 64 / (value :: values).length <
        2 ^ 32 := by
      rw [Nat.div_lt_iff_lt_mul hpos]
      have hcount : (2 ^ 32 - 1) * (value :: values).length < 2 ^ 32 * (value :: values).length :=
        Nat.mul_lt_mul_of_pos_right (by decide) hpos
      rw [Nat.mul_comm] at hsum
      omega
    rw [if_pos hpos, UInt32.toNat_ofNat_of_lt' hmean]

end Metric

namespace MetricLog

/-- What the history holds at a time: all that was added, without some samples that are more than
a minute old. -/
structure Sound (l : MetricLog) (clock : Int) : Prop where
  ordered : l.added.Pairwise fun a b => a.timestamp ≤ b.timestamp
  past : ∀ sample ∈ l.added, sample.timestamp ≤ clock
  kept : ∃ dropped, l.added = dropped ++ l.metric.history ∧
    ∀ sample ∈ dropped, sample.ageMs clock > 60000

variable {l : MetricLog} {clock now : Int}

theorem ageMs_le_ageMs {a b : Sample} (hage : now - b.timestamp ≤ clock - a.timestamp) :
    b.ageMs now ≤ a.ageMs clock :=
  Int.tdiv_le_tdiv (by decide) hage

theorem Sound.later (hl : l.Sound clock) (hclock : clock ≤ now) : l.Sound now := by
  obtain ⟨dropped, hadded, hold⟩ := hl.kept
  refine ⟨hl.ordered, fun sample hs => (hl.past sample hs).trans hclock, dropped, hadded, ?_⟩
  intro sample hs
  exact lt_of_lt_of_le (hold sample hs) (ageMs_le_ageMs (by omega))

/-- `add` keeps every sample of at most a minute. -/
theorem Sound.add (hl : l.Sound now) (value : UInt32) : (l.step (.add now value)).Sound now := by
  obtain ⟨dropped, hadded, hold⟩ := hl.kept
  have hnew : ∀ sample ∈ l.added ++ [(⟨now, value⟩ : Sample)], sample.timestamp ≤ now := by
    intro sample hs
    rcases List.mem_append.mp hs with hs | hs
    · exact hl.past sample hs
    · rw [List.mem_singleton.mp hs]
  refine ⟨?_, hnew, ?_⟩
  · refine List.pairwise_append.mpr ⟨hl.ordered, List.pairwise_singleton _ _, ?_⟩
    intro a ha b hb
    rw [List.mem_singleton.mp hb]
    exact hl.past a ha
  · let old (sample : Sample) : Bool := sample.ageMs now > 60000
    refine ⟨dropped ++ (l.metric.history ++ [(⟨now, value⟩ : Sample)]).takeWhile old, ?_, ?_⟩
    · show l.added ++ _ = _ ++ (l.metric.history ++ [(⟨now, value⟩ : Sample)]).dropWhile old
      rw [List.append_assoc, List.takeWhile_append_dropWhile, hadded, List.append_assoc]
    · intro sample hs
      rcases List.mem_append.mp hs with hs | hs
      · exact hold sample hs
      · simpa [old] using List.mem_takeWhile_imp hs

/-- A query over at most a minute meets every sample of its window, the newest first. -/
theorem Sound.valuesInWindow_eq (hl : l.Sound now) {durationMs : UInt32}
    (hduration : durationMs.toNat ≤ 60000) :
    l.metric.valuesInWindow now durationMs = (l.windowValues now durationMs).reverse := by
  obtain ⟨dropped, hadded, hold⟩ := hl.kept
  have hordered : l.metric.history.Pairwise fun a b => a.timestamp ≤ b.timestamp :=
    hl.ordered.sublist (hadded ▸ List.sublist_append_right _ _)
  have hgone : dropped.filter (fun sample => sample.ageMs now ≤ (durationMs.toNat : Int)) = [] := by
    refine List.filter_eq_nil_iff.mpr fun sample hs => ?_
    have := hold sample hs
    simp only [decide_eq_true_eq]
    omega
  have hsame : ∀ sample : Sample, (!decide (sample.ageMs now > (durationMs.toNat : Int))) =
      decide (sample.ageMs now ≤ (durationMs.toNat : Int)) := by
    intro sample
    rw [Bool.eq_iff_iff]
    simp
  unfold Metric.valuesInWindow windowValues
  simp only [hsame]
  rw [Window.takeWhile_reverse_eq_filter, hadded, List.filter_append, hgone, List.nil_append,
    List.map_reverse]
  refine hordered.imp fun {a b} hab hrecent => ?_
  have hage : b.ageMs now ≤ a.ageMs now := ageMs_le_ageMs (by omega)
  simp only [decide_eq_true_eq] at hrecent ⊢
  omega

theorem Sound.after (hl : l.Sound clock) {call : MetricCall} (hclock : clock ≤ call.now) :
    (l.step call).Sound call.now := by
  cases call with
  | add now value => exact (hl.later hclock).add value
  | query now query durationMs => exact hl.later hclock

theorem Sound.calls (hl : l.Sound clock) {calls : List MetricCall}
    (hfrom : ∀ call ∈ calls, clock ≤ call.now) (hclock : Nondecreasing calls) :
    Transition.EachStep step (fun l call => l.Sound call.now) l calls := by
  induction calls generalizing l clock with
  | nil => trivial
  | cons call calls ih =>
    obtain ⟨hlater, hrest⟩ := List.pairwise_cons.mp hclock
    have hfirst : clock ≤ call.now := hfrom call List.mem_cons_self
    exact ⟨hl.later hfirst, ih (hl.after hfirst) hlater hrest⟩

/-- The history is sound at every call. -/
theorem sound_calls {calls : List MetricCall} (hclock : Nondecreasing calls) :
    Transition.EachStep step (fun l call => l.Sound call.now) {} calls := by
  cases calls with
  | nil => trivial
  | cons call calls =>
    have hnew : Sound {} call.now := ⟨List.Pairwise.nil, nofun, [], rfl, nofun⟩
    refine hnew.calls ?_ hclock
    intro other hother
    rcases List.mem_cons.mp hother with rfl | hother
    · exact le_refl _
    · exact (List.pairwise_cons.mp hclock).1 other hother

theorem Sound.ask_toNat (hl : l.Sound now) {durationMs : UInt32}
    (hduration : durationMs.toNat ≤ 60000) (query : MetricQuery) :
    (query.ask now durationMs l.metric).toNat =
      query.ofWords (l.windowValues now durationMs) := by
  have hvalues := hl.valuesInWindow_eq hduration
  cases query with
  | min =>
    show _ = MetricQuery.min.ofValues _
    rw [MetricQuery.ask, Metric.min_toNat, hvalues, ofValues_reverse]
  | max =>
    show _ = MetricQuery.max.ofValues _
    rw [MetricQuery.ask, Metric.max_toNat, hvalues, ofValues_reverse]
  | avg =>
    rw [MetricQuery.ask, Metric.avg_toNat, hvalues, MetricQuery.ofWords, List.map_reverse,
      List.sum_reverse, List.length_reverse]

/-- On every nondecreasing clock, each query over at most a minute answers for all samples that
were ever added and are in its window: the minimum, the maximum, and the mean of a total that a
`uint64_t` holds. -/
theorem queries_answer (calls : List MetricCall) (hclock : Nondecreasing calls) :
    Transition.EachStep step AnswersInWords {} calls := by
  refine (sound_calls hclock).imp ?_
  intro l call hl
  cases call with
  | add now value => trivial
  | query now query durationMs =>
    intro hduration
    have hask : (query.ask now durationMs l.metric).toNat =
        query.ofWords (l.windowValues now durationMs) := Sound.ask_toNat hl hduration query
    refine ⟨hask, fun htotal => hask.trans ?_⟩
    cases query with
    | avg => rw [MetricQuery.ofWords, Nat.mod_eq_of_lt htotal, MetricQuery.ofValues]
    | _ => rfl

/-- Samples at the same time, a query, and one when the first two are too old for it. -/
theorem queries_answer_twice :
    let calls : List MetricCall := [.add 0 5, .add 0 8, .query 1000000000 .avg 1000,
      .add 1500000000 9, .query 2000000000 .min 1000]
    Nondecreasing calls ∧ Transition.EachStep step AnswersInWords {} calls ∧
      (Metric.avg 1000000000 1000 (Metric.add 0 8 (Metric.add 0 5 {}))) = 6 := by
  intro calls
  have hclock : Nondecreasing calls := by decide
  exact ⟨hclock, queries_answer calls hclock, by decide⟩

theorem added_replicate (n : Nat) (value : UInt32) :
    (Transition.run step l (List.replicate n (.add now value))).added =
      l.added ++ List.replicate n ⟨now, value⟩ := by
  induction n generalizing l with
  | zero => simp
  | succ n ih =>
    rw [List.replicate_succ, Transition.run_cons, ih, List.replicate_succ]
    show (l.added ++ [_]) ++ _ = _
    simp

theorem windowValues_replicate (n : Nat) (value : UInt32) :
    (Transition.run step {} (List.replicate n (.add 0 value))).windowValues 0 60000 =
      List.replicate n value := by
  rw [windowValues, added_replicate, List.nil_append,
    List.filter_replicate_of_pos (by simp [Sample.ageMs]),
    List.map_replicate]

theorem nondecreasing_replicate (n : Nat) (value : UInt32) :
    Nondecreasing (List.replicate n (.add 0 value) ++ [.query 0 .avg 60000]) := by
  refine List.pairwise_append.mpr ⟨List.pairwise_replicate.mpr (Or.inr (le_refl _)),
    List.pairwise_singleton _ _, ?_⟩
  intro a ha b hb
  rw [List.eq_of_mem_replicate ha, List.mem_singleton.mp hb]
  exact le_refl _

/-- The mean of `n` equal samples is their value only while the total fits. -/
theorem mean_of_answers {n : Nat} {value : UInt32}
    (hanswers : Transition.EachStep step Answers {}
      (List.replicate n (.add 0 value) ++ [.query 0 .avg 60000])) :
    n * value.toNat % 2 ^ 64 / n = n * value.toNat / n := by
  obtain ⟨hl, -⟩ := ((Transition.eachStep_append _).mp
    (sound_calls (nondecreasing_replicate n value))).2
  obtain ⟨hanswer, -⟩ := ((Transition.eachStep_append _).mp hanswers).2
  have hwords := Sound.ask_toNat hl (show (60000 : UInt32).toNat ≤ 60000 by decide) .avg
  have hmean := hwords.symm.trans (hanswer (by decide))
  simpa [MetricCall.now, windowValues_replicate, MetricQuery.ofWords, MetricQuery.ofValues]
    using hmean

/-- With `2^32 + 2` samples of the greatest value the total of the mean wraps. -/
theorem not_answers_wrapped :
    Nondecreasing
        (List.replicate (2 ^ 32 + 2) (.add 0 0xFFFFFFFF) ++ [.query 0 .avg 60000]) ∧
      ¬Transition.EachStep step Answers {}
        (List.replicate (2 ^ 32 + 2) (.add 0 0xFFFFFFFF) ++ [.query 0 .avg 60000]) :=
  ⟨nondecreasing_replicate _ _, fun hanswers =>
    absurd (mean_of_answers hanswers) (by decide)⟩

end MetricLog

end LuxonServer
