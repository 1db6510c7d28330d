import Mathlib
import SegmentedDownload.Progress

/-!
# SegmentedDownload.Proofs.Throttling

Which updates of a reporter reach its observer.

* `Reporter.follow` is a reporter after some reports, each with its time, beside all that it has
  passed on.  The throttle remembers the last entry of this list and nothing else (`Recalls`), so
  its decision is one about the list (`admits_iff`).
* `Passes` is the rule: an update is passed on if it tells another number of bytes than the last
  one that was, and comes at least the interval after it, or tells that the file is complete.
* No matter how many segments report, and when the total becomes known, the list keeps to this rule
  (`follow_throttled`).  Two of its entries that are closer than the interval need not be
  neighbours, so this is proved of all pairs.
-/

namespace SegmentedDownload.Reporter

/-! ## Reports -/

/-- What a reporter is told. -/
inductive Report
  | reset (initial : List Int)
  | update (index : Nat) (progress : Int) (length? : Option Int)
  | finish (size : Int)
deriving Repr, DecidableEq

/-- No number of bytes in a report is negative. -/
def Report.IsCount : Report → Prop
  | .reset initial => ∀ n ∈ initial, 0 ≤ n
  | .update _ progress _ => 0 ≤ progress
  | .finish size => 0 ≤ size

instance : (report : Report) → Decidable report.IsCount
  | .reset initial => inferInstanceAs (Decidable (∀ n ∈ initial, 0 ≤ n))
  | .update _ progress _ => inferInstanceAs (Decidable (0 ≤ progress))
  | .finish size => inferInstanceAs (Decidable (0 ≤ size))

/-- Whether the observer may hear of a report. -/
def Report.isUpdate : Report → Bool
  | .reset _ => false
  | .update _ _ _ => true
  | .finish _ => true

/-- The reporter with a report counted, before the throttle is asked. -/
def count (r : Reporter) : Report → Reporter
  | .reset initial => r.reset initial
  | .update index progress length? =>
    let segments := r.segments.set index progress
    let total :=
      if segments.length = 1 ∧ r.snapshot.total = 0 then length?.getD 0 else r.snapshot.total
    { r with segments, snapshot := { total, transferred := sum segments } }
  | .finish size => { r with snapshot := { total := size, transferred := size } }

def counters (r : Reporter) (reports : List Report) : Snapshot := (reports.foldl count r).snapshot

/-- The reporter after a report, and what it passes on. -/
def handle (r : Reporter) (now : Nat) : Report → Reporter × Option Snapshot
  | .reset initial => (r.reset initial, none)
  | .update index progress length? => r.update index progress length? now
  | .finish size => r.finish size now

/-- A report is counted, and then the throttle is asked if it may be heard of. -/
theorem handle_eq (r : Reporter) (now : Nat) (report : Report) :
    r.handle now report =
      if report.isUpdate then (r.count report).emit now else (r.count report, none) := by
  cases report <;> rfl

/-- What was passed on, and when. -/
abbrev Passed := List (Nat × Snapshot)

/-- The reporter after one more report, beside all that it has passed on. -/
def followOne (x : Reporter × Passed) (e : Nat × Report) : Reporter × Passed :=
  ((x.1.handle e.1 e.2).1, x.2 ++ (x.1.handle e.1 e.2).2.toList.map (Prod.mk e.1))

/-- A reporter after some reports, beside all that it has passed on. -/
def follow (r : Reporter) (reports : List (Nat × Report)) : Reporter × Passed :=
  reports.foldl followOne (r, [])

theorem follow_snoc (r : Reporter) (reports : List (Nat × Report)) (e : Nat × Report) :
    r.follow (reports ++ [e]) = followOne (r.follow reports) e := by
  simp [follow]

/-! ## The rule -/

/-- An update is passed on if it is news, and not too soon or the last one. -/
def Passes (interval : Nat) (passed : Passed) (now : Nat) (s : Snapshot) : Prop :=
  (∀ x, passed.getLast? = some x → s.transferred ≠ x.2.transferred) ∧
    (passed = [] ∨ (∃ x, passed.getLast? = some x ∧ x.1 + interval ≤ now) ∨
      0 < s.total ∧ s.transferred = s.total)

/-- What was passed on keeps to the rule: neighbours tell different numbers of bytes, and of two
updates that are closer than the interval, the later one tells that the file is complete. -/
structure IsThrottled (interval : Nat) (passed : Passed) : Prop where
  sorted : passed.Pairwise fun a b => a.1 ≤ b.1
  news : passed.IsChain fun a b => b.2.transferred ≠ a.2.transferred
  spaced : passed.Pairwise fun a b =>
    b.1 < a.1 + interval → 0 < b.2.total ∧ b.2.transferred = b.2.total

variable {interval now now' : Nat} {passed : Passed} {r : Reporter} {s : Snapshot}

/-- An update that keeps to the rule may be the next one. -/
theorem IsThrottled.snoc (h : IsThrottled interval passed) (hpast : ∀ x ∈ passed, x.1 ≤ now)
    (hpasses : Passes interval passed now s) : IsThrottled interval (passed ++ [(now, s)]) := by
  obtain ⟨hnews, hdue⟩ := hpasses
  refine ⟨?_, ?_, ?_⟩
  · rw [List.pairwise_append]
    refine ⟨h.sorted, List.pairwise_singleton _ _, fun a ha b hb => ?_⟩
    rw [List.mem_singleton.mp hb]
    exact hpast a ha
  · refine List.isChain_append.mpr ⟨h.news, List.isChain_singleton _, fun x hx y hy => ?_⟩
    obtain rfl : (now, s) = y := Option.some.inj hy
    exact hnews x hx
  · rw [List.pairwise_append]
    refine ⟨h.spaced, List.pairwise_singleton _ _, fun a ha b hb hclose => ?_⟩
    obtain rfl := List.mem_singleton.mp hb
    rcases hdue with rfl | ⟨x, hx, hlate⟩ | hcomplete
    · contradiction
    · -- nothing was passed on after the last update, so an earlier one is further away
      have hle : a.1 ≤ x.1 := by
        obtain ⟨front, hfront⟩ := List.getLast?_eq_some_iff.mp hx
        rw [hfront, List.mem_append, List.mem_singleton] at ha
        rcases ha with ha | rfl
        · have hsorted := h.sorted
          rw [hfront, List.pairwise_append] at hsorted
          exact hsorted.2.2 a ha x (List.mem_singleton_self x)
        · exact le_rfl
      dsimp only at hclose
      omega
    · exact hcomplete

/-! ## What the throttle remembers -/

/-- The throttle knows what was passed on last, and the clock has not gone back since. -/
structure Recalls (interval : Nat) (passed : Passed) (now : Nat) (r : Reporter) : Prop where
  interval_eq : r.throttle.interval = interval
  lastTime_eq : r.throttle.lastTime? = passed.getLast?.map Prod.fst
  lastTransferred_eq :
    r.throttle.lastTransferred = (passed.getLast?.map (·.2.transferred)).getD (-1)
  segments_nonneg : ∀ n ∈ r.segments, 0 ≤ n
  past : ∀ x ∈ passed, x.1 ≤ now

theorem recalls_new (size? : Option Int) (interval : Nat) (before : Snapshot) (now : Nat) :
    Recalls interval [] now (new size? interval before) :=
  ⟨rfl, rfl, rfl, fun _ hn => absurd hn List.not_mem_nil, fun _ hx => absurd hx List.not_mem_nil⟩

theorem sum_nonneg {l : List Int} (h : ∀ n ∈ l, 0 ≤ n) : 0 ≤ sum l := by
  induction l with
  | nil => exact le_rfl
  | cons n l ih =>
    obtain ⟨hn, hl⟩ := List.forall_mem_cons.mp h
    exact Int.add_nonneg hn (ih hl)

namespace Recalls

/-- The throttle decides by the rule. -/
theorem admits_iff (h : Recalls interval passed now r) (hclock : now ≤ now')
    (hs : 0 ≤ s.transferred) : r.throttle.admits s now' = true ↔ Passes interval passed now' s := by
  have hcomplete : s.isComplete = true ↔ 0 < s.total ∧ s.transferred = s.total := by
    unfold Snapshot.isComplete
    rw [Bool.and_eq_true, decide_eq_true_iff, beq_iff_eq, eq_comm (a := s.total)]
  unfold Throttle.admits Throttle.isDue Passes
  rw [h.interval_eq, h.lastTime_eq, h.lastTransferred_eq, Bool.and_eq_true, Bool.or_eq_true,
    hcomplete, bne_iff_ne]
  rcases List.eq_nil_or_concat passed with rfl | ⟨front, x, rfl⟩
  · -- nothing was passed on, and no number of bytes is below zero
    have hnews : s.transferred ≠ -1 := by omega
    simp [hnews]
  · have hpast : x.1 ≤ now := h.past x (by simp)
    have hdue : interval ≤ now' - x.1 ↔ x.1 + interval ≤ now' := by omega
    simp [hdue]

/-- Only the throttle, the segments and the clock matter. -/
theorem congr (h : Recalls interval passed now r) {r' : Reporter} (hclock : now ≤ now')
    (hthrottle : r'.throttle = r.throttle) (hsegments : ∀ n ∈ r'.segments, 0 ≤ n) :
    Recalls interval passed now' r' :=
  ⟨hthrottle ▸ h.interval_eq, hthrottle ▸ h.lastTime_eq, hthrottle ▸ h.lastTransferred_eq,
    hsegments, fun x hx => (h.past x hx).trans hclock⟩

end Recalls

/-- What a reporter makes of an update with the numbers that it has then. -/
structure Decides (interval : Nat) (passed : Passed) (now : Nat) (s : Snapshot)
    (passed' : Passed) : Prop where
  passes : Passes interval passed now s → passed' = passed ++ [(now, s)]
  drops : ¬ Passes interval passed now s → passed' = passed

/-- An update is sent exactly when it is due, and is then recalled. -/
theorem Recalls.emit (h : Recalls interval passed now r) (hs : 0 ≤ r.snapshot.transferred) :
    Recalls interval (passed ++ (r.emit now).2.toList.map (Prod.mk now)) now (r.emit now).1 ∧
      Decides interval passed now r.snapshot
        (passed ++ (r.emit now).2.toList.map (Prod.mk now)) := by
  have hadmits := h.admits_iff le_rfl hs
  obtain ⟨hinterval, htime, htransferred, hsegments, hpast⟩ := h
  unfold Reporter.emit
  split
  · next hpass =>
    refine ⟨⟨hinterval, by simp [Throttle.record], by simp [Throttle.record], hsegments, ?_⟩,
      fun _ => rfl, fun hnot => absurd (hadmits.mp hpass) hnot⟩
    intro x hx
    rcases List.mem_append.mp hx with hx | hx
    · exact hpast x hx
    · rw [List.mem_singleton.mp hx]
  · next hpass =>
    simp only [Option.toList_none, List.map_nil, List.append_nil]
    exact ⟨⟨hinterval, htime, htransferred, hsegments, hpast⟩,
      fun hpasses => absurd (hadmits.mpr hpasses) hpass, fun _ => rfl⟩

/-! ## Reports one after the other -/

/-- Counting does not depend on the throttle, and passing on counts nothing. -/
theorem count_congr {r r' : Reporter} (hsegments : r'.segments = r.segments)
    (hsnapshot : r'.snapshot = r.snapshot) (report : Report) :
    (r'.count report).segments = (r.count report).segments ∧
      (r'.count report).snapshot = (r.count report).snapshot := by
  cases report <;> simp [count, reset, hsegments, hsnapshot]

/-- Whether an update is sent does not change what is counted. -/
theorem handle_counts (r : Reporter) (now : Nat) (report : Report) :
    (r.handle now report).1.segments = (r.count report).segments ∧
      (r.handle now report).1.snapshot = (r.count report).snapshot := by
  rw [handle_eq]
  split
  · exact ⟨emit_segments _ now, emit_snapshot _ now⟩
  · exact ⟨rfl, rfl⟩

theorem follow_counts (r : Reporter) (reports : List (Nat × Report)) :
    (r.follow reports).1.segments = ((reports.map Prod.snd).foldl count r).segments ∧
      (r.follow reports).1.snapshot = r.counters (reports.map Prod.snd) := by
  unfold counters
  induction reports using List.reverseRecOn with
  | nil => exact ⟨rfl, rfl⟩
  | append_singleton done e ih =>
    obtain ⟨hsegments, hsnapshot⟩ := handle_counts (r.follow done).1 e.1 e.2
    obtain ⟨hsegments', hsnapshot'⟩ := count_congr ih.1 ih.2 e.2
    rw [follow_snoc, List.map_append, List.foldl_append]
    exact ⟨hsegments.trans hsegments', hsnapshot.trans hsnapshot'⟩

/-- No number of bytes becomes negative. -/
theorem count_nonneg (h : ∀ n ∈ r.segments, 0 ≤ n) {report : Report} (hcount : report.IsCount) :
    (∀ n ∈ (r.count report).segments, 0 ≤ n) ∧ 0 ≤ (r.count report).snapshot.transferred := by
  cases report with
  | reset initial => exact ⟨hcount, sum_nonneg hcount⟩
  | update index progress length? =>
    have hsegments : ∀ n ∈ r.segments.set index progress, 0 ≤ n := by
      intro n hn
      rcases List.mem_or_eq_of_mem_set hn with hn | rfl
      · exact h n hn
      · exact hcount
    exact ⟨hsegments, sum_nonneg hsegments⟩
  | finish size => exact ⟨h, hcount⟩

/-- A report keeps the memory, and an update is decided by the rule. -/
theorem Recalls.followOne (h : Recalls interval passed now r) {e : Nat × Report}
    (hclock : now ≤ e.1) (hcount : e.2.IsCount) :
    Recalls interval (Reporter.followOne (r, passed) e).2 e.1
        (Reporter.followOne (r, passed) e).1 ∧
      if e.2.isUpdate then
        Decides interval passed e.1 (r.count e.2).snapshot (Reporter.followOne (r, passed) e).2
      else (Reporter.followOne (r, passed) e).2 = passed := by
  obtain ⟨hsegments, htransferred⟩ := count_nonneg h.segments_nonneg hcount
  have hthrottle : (r.count e.2).throttle = r.throttle := by cases e.2 <;> rfl
  have hcounted := h.congr hclock hthrottle hsegments
  unfold Reporter.followOne
  dsimp only
  rw [handle_eq]
  split
  · exact hcounted.emit htransferred
  · rw [Option.toList_none, List.map_nil, List.append_nil]
    exact ⟨hcounted, rfl⟩

/-- The throttle remembers what a reporter has passed on, which keeps to the rule. -/
theorem follow_recalls (size? : Option Int) (interval : Nat) (before : Snapshot)
    {reports : List (Nat × Report)} (hcounts : ∀ e ∈ reports, e.2.IsCount)
    (hclock : reports.Pairwise fun a b => a.1 ≤ b.1) :
    (∀ now, (∀ e ∈ reports, e.1 ≤ now) →
      Recalls interval ((new size? interval before).follow reports).2 now
        ((new size? interval before).follow reports).1) ∧
      IsThrottled interval ((new size? interval before).follow reports).2 := by
  induction reports using List.reverseRecOn with
  | nil =>
    exact ⟨fun now _ => recalls_new size? interval before now,
      List.Pairwise.nil, List.isChain_nil, List.Pairwise.nil⟩
  | append_singleton done e ih =>
    obtain ⟨hdone, -, hlast⟩ := List.pairwise_append.mp hclock
    obtain ⟨hrecalls, hthrottled⟩ :=
      ih (fun x hx => hcounts x (List.mem_append_left _ hx)) hdone
    have hbefore := hrecalls e.1 fun x hx => hlast x hx e (List.mem_singleton_self e)
    obtain ⟨hafter, hdecides⟩ := hbefore.followOne le_rfl (hcounts e (by simp))
    rw [follow_snoc]
    refine ⟨fun now hnow => ?_, ?_⟩
    · exact hafter.congr (hnow e (by simp)) rfl hafter.segments_nonneg
    · split at hdecides
      · by_cases hpasses : Passes interval ((new size? interval before).follow done).2 e.1
          (((new size? interval before).follow done).1.count e.2).snapshot
        · rw [hdecides.passes hpasses]
          exact hthrottled.snoc hbefore.past hpasses
        · rw [hdecides.drops hpasses]
          exact hthrottled
      · rw [hdecides]
        exact hthrottled

/-- **The law of throttling.**  Of the reports that a reporter gets, with a clock that does not go
back, an update is passed on if and only if it tells another number of bytes than the last one that
was, and is the first one, or comes at least the interval after the last, or tells that the file is
complete.  What is passed on are the counters at that time, which do not depend on the throttle.

So two updates that follow each other tell different numbers, and two that are closer than the
interval are there only because the later one tells that the file is complete. -/
theorem follow_throttled (size? : Option Int) (interval : Nat) (before : Snapshot)
    {reports : List (Nat × Report)} (hcounts : ∀ e ∈ reports, e.2.IsCount)
    (hclock : reports.Pairwise fun a b => a.1 ≤ b.1) :
    (∀ done now report rest, reports = done ++ (now, report) :: rest →
      let passed := ((new size? interval before).follow done).2
      let passed' := ((new size? interval before).follow (done ++ [(now, report)])).2
      let s := (new size? interval before).counters ((done ++ [(now, report)]).map Prod.snd)
      (report.isUpdate = true ∧ Passes interval passed now s → passed' = passed ++ [(now, s)]) ∧
        (¬ (report.isUpdate = true ∧ Passes interval passed now s) → passed' = passed)) ∧
      IsThrottled interval ((new size? interval before).follow reports).2 := by
  refine ⟨?_, (follow_recalls size? interval before hcounts hclock).2⟩
  rintro done now report rest rfl
  obtain ⟨hdone, -, hlast⟩ := List.pairwise_append.mp hclock
  have hrecalls := (follow_recalls size? interval before
    (fun x hx => hcounts x (List.mem_append_left _ hx)) hdone).1 now
    fun x hx => hlast x hx (now, report) List.mem_cons_self
  obtain ⟨-, hdecides⟩ := hrecalls.followOne (e := (now, report)) le_rfl
    (hcounts (now, report) (by simp))
  obtain ⟨hsegments, hsnapshot⟩ := follow_counts (new size? interval before) done
  have hcounters : (new size? interval before).counters ((done ++ [(now, report)]).map Prod.snd) =
      (((new size? interval before).follow done).1.count report).snapshot := by
    rw [counters, List.map_append, List.foldl_append]
    exact (count_congr hsegments hsnapshot report).2.symm
  dsimp only
  rw [hcounters, follow_snoc]
  cases hupdate : report.isUpdate with
  | false =>
    rw [hupdate] at hdecides
    exact ⟨fun hboth => absurd hboth.1 Bool.false_ne_true, fun _ => hdecides⟩
  | true =>
    rw [hupdate] at hdecides
    exact ⟨fun hboth => hdecides.passes hboth.2,
      fun hnot => hdecides.drops fun hpasses => hnot ⟨rfl, hpasses⟩⟩

/-- A body whose length becomes known on the way, and is then fetched once more. -/
def slowStream : List (Nat × Report) :=
  [(0, .reset [0]), (0, .update 0 10 none), (50, .update 0 20 none), (60, .update 0 30 (some 40)),
    (70, .update 0 40 (some 40)), (200, .update 0 40 (some 40)), (250, .reset [0]),
    (260, .update 0 5 (some 40)), (270, .finish 5)]

theorem slowStream_throttled :
    (∀ e ∈ slowStream, e.2.IsCount) ∧ (slowStream.Pairwise fun a b => a.1 ≤ b.1) ∧
      ((new none 100 {}).follow slowStream).2 =
        [(0, ⟨0, 10⟩), (70, ⟨40, 40⟩), (260, ⟨40, 5⟩)] ∧
      IsThrottled 100 ((new none 100 {}).follow slowStream).2 := by
  have hcounts : ∀ e ∈ slowStream, e.2.IsCount := by decide
  have hclock : slowStream.Pairwise fun a b => a.1 ≤ b.1 := by decide
  exact ⟨hcounts, hclock, by decide, (follow_throttled none 100 {} hcounts hclock).2⟩

end SegmentedDownload.Reporter
