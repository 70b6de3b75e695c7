import Mathlib.Algebra.Order.BigOperators.Group.List
import Safwk.FfrtStatistics

/-!
# What the FFRT parser reports

The parser walks over the records of the buffer until it is at the end or finds a record
without a name, leaves out the records that end before they start, and prints five
numbers and the records it kept. Here the numbers are those of the list of kept records,
as long as their durations add up to less than `2 ^ 64`; if they do not, the sum wraps
and nothing is claimed.

The walk fails if it reads a record that is not in the buffer, so that it reports anything
at all says that no record beyond the buffer is read.
-/

namespace FfrtParser

open FfrtStatistics

/-! ## What is to be reported -/

def named (stat : FfrtStat) : Bool := SaMain.cStr stat.taskName != []

/-- The records before the first one with an empty name. -/
def written (stats : List FfrtStat) : List FfrtStat := stats.takeWhile named

/-- Those of them that do not end before they start. -/
def kept (stats : List FfrtStat) : List FfrtStat :=
  (written stats).filter fun stat => stat.startTime ≤ stat.endTime

/-- The records of the buffer that are to be reported. -/
def validStats (memory : Nat → FfrtStat) : List FfrtStat := kept (buffer memory)

def duration (stat : FfrtStat) : Nat := stat.endTime.toNat - stat.startTime.toNat

def durations (stats : List FfrtStat) : List Nat := stats.map duration

/-- The largest number of a list, 0 if it is empty. -/
def largest (numbers : List Nat) : Nat := numbers.max?.getD 0

/-- The smallest number of a list, 0 if it is empty. -/
def smallest (numbers : List Nat) : Nat := numbers.min?.getD 0

/-- The average, rounded down, 0 if the list is empty. -/
def average (numbers : List Nat) : Nat :=
  if numbers = [] then 0 else numbers.sum / numbers.length

/-- The line of a record. -/
def recordLine (stat : FfrtStat) : StdString :=
  SaMain.cStr stat.taskName ++ (StdString.literal " " ++ FfrtStatistics.toString stat.startTime) ++
    (StdString.literal " " ++ FfrtStatistics.toString stat.endTime ++ StdString.literal "\n")

/-- The five numbers, and a line for each record. -/
def report (sum max min avg count : Nat) (stats : List FfrtStat) : StdString :=
  (StdString.literal "sumTime:" ++ Decimal.ofNat sum ++
      StdString.literal " maxTime:" ++ Decimal.ofNat max) ++
    (StdString.literal " minTime:" ++ Decimal.ofNat min ++
      StdString.literal " avgTime:" ++ Decimal.ofNat avg) ++
    (StdString.literal " cntTime:" ++ Decimal.ofNat count ++ StdString.literal "\n") ++
    line ++
    StdString.literal
      "taskName                                                        startTime(us)   endTime(us)\n" ++
    line ++ stats.flatMap recordLine ++ line

/-! ## Numbers of a list -/

theorem largest_mem {numbers : List Nat} (nonempty : numbers ≠ []) :
    largest numbers ∈ numbers ∧ ∀ n ∈ numbers, n ≤ largest numbers := by
  obtain ⟨n, found⟩ := Option.ne_none_iff_exists'.mp (mt List.max?_eq_none_iff.mp nonempty)
  rw [largest, found]
  exact List.max?_eq_some_iff.mp found

theorem smallest_mem {numbers : List Nat} (nonempty : numbers ≠ []) :
    smallest numbers ∈ numbers ∧ ∀ n ∈ numbers, smallest numbers ≤ n := by
  obtain ⟨n, found⟩ := Option.ne_none_iff_exists'.mp (mt List.min?_eq_none_iff.mp nonempty)
  rw [smallest, found]
  exact List.min?_eq_some_iff.mp found

theorem average_between (numbers : List Nat) :
    smallest numbers ≤ average numbers ∧ average numbers ≤ largest numbers := by
  by_cases nonempty : numbers = []
  · subst nonempty
    decide
  have positive : 0 < numbers.length := List.length_pos_iff.mpr nonempty
  rw [average, if_neg nonempty]
  constructor
  · apply (Nat.le_div_iff_mul_le positive).mpr
    have lower := List.card_nsmul_le_sum numbers (smallest numbers) (smallest_mem nonempty).2
    rwa [Nat.nsmul_eq_mul, mul_comm] at lower
  · apply Nat.div_le_of_le_mul
    have upper := List.sum_le_card_nsmul numbers (largest numbers) (largest_mem nonempty).2
    rwa [Nat.nsmul_eq_mul] at upper

/-! ## The loop -/

/-- What the variables hold when the records `done` have been counted. The minimum begins
above every duration. -/
structure Counts (totals : Totals) (done : List FfrtStat) : Prop where
  taskInfo : totals.taskInfo = done.flatMap recordLine
  count : totals.count.toNat = done.length
  sumTime : totals.sumTime.toNat = (durations done).sum
  maxTime : totals.maxTime.toNat = (durations done).foldl max 0
  minTime : totals.minTime.toNat = (durations done).foldl min 18446744073709551615

theorem start_counts : Counts start [] := ⟨rfl, rfl, rfl, rfl, rfl⟩

theorem durations_append (done stats : List FfrtStat) :
    durations (done ++ stats) = durations done ++ durations stats :=
  List.map_append

theorem durations_length (stats : List FfrtStat) : (durations stats).length = stats.length :=
  List.length_map duration

theorem durations_eq_nil {stats : List FfrtStat} : durations stats = [] ↔ stats = [] :=
  List.map_eq_nil_iff

theorem duration_toNat {stat : FfrtStat} (ordered : stat.startTime ≤ stat.endTime) :
    (stat.endTime - stat.startTime).toNat = duration stat :=
  UInt64.toNat_sub_of_le _ _ ordered

/-- One record more, if neither the count nor the sum wraps. -/
theorem Counts.add {totals : Totals} {done : List FfrtStat} {stat : FfrtStat}
    (counts : Counts totals done) (ordered : stat.startTime ≤ stat.endTime)
    (fewer : done.length < 2 ^ 64 - 1) (bounded : (durations (done ++ [stat])).sum < 2 ^ 64) :
    Counts (totals.add stat) (done ++ [stat]) := by
  have exact := duration_toNat ordered
  have one : durations [stat] = [duration stat] := rfl
  rw [durations_append, one, List.sum_append, List.sum_singleton] at bounded
  constructor
  · simp only [Totals.add, counts.taskInfo, List.flatMap_append, List.flatMap_singleton,
      recordLine, List.append_assoc]
  · have counted := counts.count
    simp only [Totals.add, UInt64.toNat_add, List.length_append, List.length_singleton]
    simp only [UInt64.reduceToNat]
    omega
  · simp only [Totals.add, UInt64.toNat_add, exact, counts.sumTime, durations_append, one,
      List.sum_append, List.sum_singleton]
    exact Nat.mod_eq_of_lt bounded
  · simp only [Totals.add, durations_append, one, List.foldl_append, List.foldl_cons, List.foldl_nil]
    rw [← counts.maxTime, ← exact]
    exact UInt64.toNat_max _ _
  · simp only [Totals.add, durations_append, one, List.foldl_append, List.foldl_cons, List.foldl_nil]
    rw [← counts.minTime, ← exact]
    exact UInt64.toNat_min _ _

/-- Records one after the other; the bounds are on all of them together. -/
theorem Counts.foldl {totals : Totals} {done : List FfrtStat} (counts : Counts totals done)
    (stats : List FfrtStat) (ordered : ∀ stat ∈ stats, stat.startTime ≤ stat.endTime)
    (fewer : (done ++ stats).length < 2 ^ 64) (bounded : (durations (done ++ stats)).sum < 2 ^ 64) :
    Counts (stats.foldl Totals.add totals) (done ++ stats) := by
  induction stats generalizing totals done with
  | nil => rwa [List.append_nil]
  | cons stat stats ih =>
    have split : done ++ stat :: stats = (done ++ [stat]) ++ stats := by simp
    have notMore : (durations (done ++ [stat])).sum ≤ (durations (done ++ stat :: stats)).sum := by
      rw [split, durations_append (done ++ [stat]), List.sum_append]
      omega
    have next : Counts (totals.add stat) (done ++ [stat]) := by
      apply counts.add (ordered stat List.mem_cons_self) _ (by omega)
      simp only [List.length_append, List.length_cons] at fewer
      omega
    rw [split] at fewer bounded ⊢
    exact ih next (fun other member => ordered other (List.mem_cons_of_mem stat member)) fewer
      bounded

theorem kept_cons_unnamed {stat : FfrtStat} (stats : List FfrtStat) (unnamed : named stat = false) :
    kept (stat :: stats) = [] := by
  rw [kept, written, List.takeWhile_cons_of_neg (by simp [unnamed]), List.filter_nil]

theorem kept_cons_named {stat : FfrtStat} (stats : List FfrtStat) (isNamed : named stat = true) :
    kept (stat :: stats) =
      if stat.startTime ≤ stat.endTime then stat :: kept stats else kept stats := by
  rw [kept, written, List.takeWhile_cons_of_pos isNamed, List.filter_cons]
  simp only [decide_eq_true_eq]
  rfl

theorem drop_of_getElem? {stats : List FfrtStat} {i : Nat} {stat : FfrtStat}
    (found : stats[i]? = some stat) : stats.drop i = stat :: stats.drop (i + 1) := by
  obtain ⟨bound, rfl⟩ := List.getElem?_eq_some_iff.mp found
  exact List.drop_eq_getElem_cons bound

/-- In a full buffer the loop reads no record past the end, and adds those that are kept. -/
theorem parseLoop_eq {stats : List FfrtStat} (full : stats.length = collectFfrtMetricMaxSize)
    (i : Nat) (totals : Totals) :
    parseLoop stats i totals = some ((kept (stats.drop i)).foldl Totals.add totals) := by
  fun_induction parseLoop stats i totals with
  | case1 i totals inside missing =>
    have outside := List.getElem?_eq_none_iff.mp missing
    omega
  | case2 i totals inside stat found empty =>
    rw [drop_of_getElem? found, kept_cons_unnamed _ (by simp [named, empty])]
    rfl
  | case3 i totals inside stat found nonempty early ih =>
    rw [ih, drop_of_getElem? found, kept_cons_named _ (by simpa [named] using nonempty),
      if_neg (UInt64.not_le.mpr early)]
  | case4 i totals inside stat found nonempty late ih =>
    rw [ih, drop_of_getElem? found, kept_cons_named _ (by simpa [named] using nonempty),
      if_pos (UInt64.not_lt.mp late), List.foldl_cons]
  | case5 i totals outside =>
    rw [List.drop_of_length_le (by omega)]
    rfl

theorem buffer_length (memory : Nat → FfrtStat) :
    (buffer memory).length = collectFfrtMetricMaxSize := by
  rw [buffer, List.length_map, List.length_range]

/-! ## The report -/

theorem kept_length (stats : List FfrtStat) : (kept stats).length ≤ stats.length :=
  (List.length_filter_le _ _).trans (List.takeWhile_sublist named).length_le

theorem kept_ordered {stats : List FfrtStat} {stat : FfrtStat} (member : stat ∈ kept stats) :
    stat.startTime ≤ stat.endTime :=
  of_decide_eq_true (List.mem_filter.mp member).2

/-- The loop ends, and then the variables hold the numbers of the kept records. -/
theorem parseLoop_counts (memory : Nat → FfrtStat)
    (bounded : (durations (validStats memory)).sum < 2 ^ 64) :
    ∃ totals, parseLoop (buffer memory) 0 start = some totals ∧
      Counts totals (validStats memory) := by
  refine ⟨_, parseLoop_eq (buffer_length memory) 0 start, ?_⟩
  rw [List.drop_zero]
  have short : (validStats memory).length ≤ (buffer memory).length := kept_length (buffer memory)
  rw [buffer_length, collectFfrtMetricMaxSize] at short
  have all := start_counts.foldl (validStats memory) fun stat member => kept_ordered member
  rw [List.nil_append] at all
  exact all (by omega) bounded

theorem foldl_max_eq_largest (numbers : List Nat) : numbers.foldl max 0 = largest numbers := by
  rw [List.foldl_max, Nat.zero_max]
  rfl

/-- The start value of the minimum is above the numbers. -/
theorem foldl_min_eq_smallest {numbers : List Nat} {top : Nat} (nonempty : numbers ≠ [])
    (below : ∀ n ∈ numbers, n ≤ top) : numbers.foldl min top = smallest numbers := by
  obtain ⟨n, found⟩ := Option.ne_none_iff_exists'.mp (mt List.min?_eq_none_iff.mp nonempty)
  rw [List.foldl_min, smallest, found]
  exact Nat.min_eq_right (below n (List.min?_mem found))

theorem duration_le (stat : FfrtStat) : duration stat ≤ 18446744073709551615 := by
  have bound := stat.endTime.toNat_lt
  rw [duration]
  omega

section Printed

variable {totals : Totals} {stats : List FfrtStat}

theorem Counts.count_eq_zero (counts : Counts totals stats) : totals.count = 0 ↔ stats = [] := by
  rw [← UInt64.toNat_inj, counts.count]
  exact List.length_eq_zero_iff

theorem Counts.max_printed (counts : Counts totals stats) :
    totals.maxTime.toNat = largest (durations stats) := by
  rw [counts.maxTime, foldl_max_eq_largest]

theorem Counts.min_printed (counts : Counts totals stats) :
    (if totals.count = 0 then 0 else totals.minTime).toNat = smallest (durations stats) := by
  by_cases nothing : stats = []
  · rw [if_pos (counts.count_eq_zero.mpr nothing), nothing]
    rfl
  · rw [if_neg (mt counts.count_eq_zero.mp nothing), counts.minTime]
    apply foldl_min_eq_smallest (mt durations_eq_nil.mp nothing)
    intro n member
    obtain ⟨stat, -, rfl⟩ := List.mem_map.mp member
    exact duration_le stat

theorem Counts.avg_printed (counts : Counts totals stats) :
    (if totals.count = 0 then 0 else totals.sumTime / totals.count).toNat =
      average (durations stats) := by
  by_cases nothing : stats = []
  · rw [if_pos (counts.count_eq_zero.mpr nothing), nothing]
    rfl
  · rw [if_neg (mt counts.count_eq_zero.mp nothing), UInt64.toNat_div, counts.sumTime,
      counts.count, average, if_neg (mt durations_eq_nil.mp nothing), durations_length]

end Printed

/-- If the durations of the kept records add up to less than `2 ^ 64`, the parser reads no
record past the end of the buffer, lists the kept records in order and reports their number,
the exact sum of the durations, the largest, the smallest and the average. -/
theorem statistics_reported (memory : Nat → FfrtStat) (result : StdString)
    (bounded : (durations (validStats memory)).sum < 2 ^ 64) :
    ffrtStatisticsParser (buffer memory) result =
      some (result ++
        report (durations (validStats memory)).sum (largest (durations (validStats memory)))
          (smallest (durations (validStats memory))) (average (durations (validStats memory)))
          (validStats memory).length (validStats memory)) ∧
    smallest (durations (validStats memory)) ≤ average (durations (validStats memory)) ∧
    average (durations (validStats memory)) ≤ largest (durations (validStats memory)) := by
  refine ⟨?_, average_between _⟩
  obtain ⟨totals, parsed, counts⟩ := parseLoop_counts memory bounded
  rw [ffrtStatisticsParser, parsed, Option.map_some]
  simp only [Totals.print, report, FfrtStatistics.toString, counts.taskInfo, counts.sumTime,
    counts.count, counts.max_printed, counts.min_printed, counts.avg_printed, List.append_assoc]

/-- The second of three records ends before it starts. -/
def threeStats : Nat → FfrtStat
  | 0 => ⟨StdString.literal "a", 1, 4⟩
  | 1 => ⟨StdString.literal "b", 9, 2⟩
  | 2 => ⟨StdString.literal "c", 10, 12⟩
  | _ => ⟨[], 0, 0⟩

theorem validStats_three : validStats threeStats = [threeStats 0, threeStats 2] := by
  rw [validStats, buffer, List.range_eq_range']
  rfl

theorem statistics_reported_three :
    ffrtStatisticsParser (buffer threeStats) [] =
      some (report 5 3 2 2 2 [threeStats 0, threeStats 2]) := by
  have reported := statistics_reported threeStats [] (by rw [validStats_three]; decide)
  rw [validStats_three] at reported
  exact reported.1

end FfrtParser
