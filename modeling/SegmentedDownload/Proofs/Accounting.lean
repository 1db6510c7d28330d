import Mathlib
import SegmentedDownload.Proofs.Records
import SegmentedDownload.Proofs.Delivery

/-!
# SegmentedDownload.Proofs.Accounting

The progress that a run publishes, and the progress that it records.

There are two accounts of a run.  The reporter counts each segment by what its worker received;
the table records it by what its worker flushed.  Both begin with the committed bytes, but a worker
fetches the last of these again, so its count would begin one byte below.

* `Accounts` says what the reporter counts: the committed bytes of a segment, or the progress of
  its worker once this is more.  Every incident keeps it, and no incident lowers the count
  (`Counting.step`).
* A worker never counts more than its range, so the count never exceeds the size
  (`Counting.le_size`).
* Flushing changes no count.  Afterwards the records claim at most what is counted, and exactly
  that if nothing was left in a buffer (`Settled.session_le`).

`Transfer.stages` lists the states that a run goes through, and `Transfer.Balances` says what holds
of the numbers in them.
-/

namespace SegmentedDownload

/-! ## Published numbers -/

namespace Reporter

/-- What the observer heard, and what is published now: the total is always the same, and the
transferred bytes never go down. -/
structure Rising (size : Int) (heard : List Snapshot) (s : Snapshot) : Prop where
  sorted : ((heard ++ [s]).map Snapshot.transferred).Pairwise (· ≤ ·)
  total_eq : ∀ x ∈ heard ++ [s], x.total = size

variable {size : Int} {heard : List Snapshot} {s s' : Snapshot} {l l' : List Int}

/-- A first update is above nothing. -/
theorem Rising.first (h : s.total = size) : Rising size [] s :=
  ⟨List.pairwise_singleton _ _, by simpa using h⟩

/-- More is published. -/
theorem Rising.raise (h : Rising size heard s) (htotal : s'.total = size)
    (hle : s.transferred ≤ s'.transferred) : Rising size heard s' := by
  obtain ⟨hsorted, htotals⟩ := h
  simp only [List.map_append, List.pairwise_append, List.map_cons, List.map_nil,
    List.mem_singleton, forall_eq, List.mem_append] at hsorted htotals
  obtain ⟨hheard, -, hbelow⟩ := hsorted
  refine ⟨?_, ?_⟩
  · simp only [List.map_append, List.pairwise_append, List.map_cons, List.map_nil,
      List.mem_singleton, forall_eq]
    exact ⟨hheard, List.pairwise_singleton _ _, fun a ha => (hbelow a ha).trans hle⟩
  · simp only [List.mem_append, List.mem_singleton]
    rintro x (hx | rfl)
    · exact htotals x (Or.inl hx)
    · exact htotal

/-- The observer may hear what is published. -/
theorem Rising.emit {r : Reporter} (h : Rising size heard r.snapshot) (now : Nat) :
    Rising size (heard ++ (r.emit now).2.toList) (r.emit now).1.snapshot := by
  unfold Reporter.emit
  split
  · obtain ⟨hsorted, htotals⟩ := h
    refine ⟨?_, ?_⟩
    · simp only [Option.toList_some, List.map_append, List.map_cons, List.map_nil,
        List.pairwise_append, List.mem_singleton, forall_eq] at hsorted ⊢
      obtain ⟨hheard, hone, hbelow⟩ := hsorted
      refine ⟨⟨hheard, hone, hbelow⟩, hone, fun a ha => ?_⟩
      rcases List.mem_append.mp ha with ha | ha
      · exact hbelow a ha
      · rw [List.mem_singleton.mp ha]
    · simpa using htotals
  · simpa using h

/-! ## Sums -/

theorem sum_le_sum (hlength : l.length = l'.length)
    (hle : ∀ (i : Nat) (a b : Int), l[i]? = some a → l'[i]? = some b → a ≤ b) :
    sum l ≤ sum l' := by
  induction l generalizing l' with
  | nil =>
    rw [List.length_eq_zero_iff.mp hlength.symm]
  | cons a l ih =>
    cases l' with
    | nil => contradiction
    | cons b l' =>
      have hfirst : a ≤ b := hle 0 a b rfl rfl
      have hrest : sum l ≤ sum l' := ih (by simpa using hlength) fun i => hle (i + 1)
      exact Int.add_le_add hfirst hrest

/-- Raising one of some numbers does not lower their sum. -/
theorem sum_le_sum_set {i : Nat} {a b : Int} (hi : l[i]? = some a) (hle : a ≤ b) :
    sum l ≤ sum (l.set i b) := by
  refine sum_le_sum (List.length_set).symm fun j c d hc hd => ?_
  by_cases hij : i = j
  · subst hij
    rw [List.getElem?_set_self (List.getElem?_eq_some_iff.mp hi).1] at hd
    obtain rfl := Option.some.inj hd
    obtain rfl := Option.some.inj (hi.symm.trans hc)
    exact hle
  · rw [List.getElem?_set_ne hij] at hd
    exact (Option.some.inj (hc.symm.trans hd)).le

/-- Reporting that a segment has more than before raises what is published. -/
theorem Rising.update {r : Reporter} (h : Rising size heard r.snapshot) (hsize : 0 < size)
    (hsum : r.snapshot.transferred = sum r.segments) {index : Nat} {a b : Int}
    (ha : r.segments[index]? = some a) (hle : a ≤ b) (length? : Option Int) (now : Nat) :
    (r.update index b length? now).1.segments = r.segments.set index b ∧
      (r.update index b length? now).1.snapshot =
        { total := size, transferred := sum (r.segments.set index b) } ∧
      Rising size (heard ++ (r.update index b length? now).2.toList)
        (r.update index b length? now).1.snapshot := by
  have htotal : (if (r.segments.set index b).length = 1 ∧ r.snapshot.total = 0
      then length?.getD 0 else r.snapshot.total) = size := by
    have hsame : r.snapshot.total = size := h.total_eq _ (by simp)
    rw [hsame, if_neg fun hboth => absurd hboth.2 hsize.ne']
  have hraise : r.snapshot.transferred ≤ sum (r.segments.set index b) :=
    hsum ▸ sum_le_sum_set ha hle
  refine ⟨emit_segments _ now, ?_, (h.raise htotal hraise).emit now⟩
  exact (emit_snapshot _ now).trans (by rw [htotal])

theorem sum_session (segments : List Segment) :
    sum (segments.map Segment.session) = segments.foldr (fun s n => s.session + n) 0 := by
  simp [sum, List.foldr_map]

end Reporter

/-- The lengths of the segments of a partition add up to the size. -/
theorem Plan.IsPartition.sum_length {size : Int} {segments : List Segment}
    (h : IsPartition size segments) :
    Reporter.sum (segments.map fun s => s.last - s.start + 1) = size := by
  have hsum := ResumeHeader.sum_length_of_coversFrom h.covers
  rwa [Int.sub_zero] at hsum

/-- The end of a body does to the file what flushing does. -/
theorem Worker.finish_file (w : Worker) (p : PartialFile) :
    (w.finish p).2.1 = (w.flush p).2.1 := by
  unfold finish
  cases w.flush p with
  | mk w' result =>
    obtain ⟨p', fault?⟩ := result
    cases fault? with
    | some e => rfl
    | none =>
      dsimp only
      split <;> rfl

namespace Transfer

/-! ## What the reporter counts -/

/-- The reporter counts each segment by its committed bytes, or by the progress of its worker
once this is more. -/
structure Accounts (size : Int) (t : Transfer) : Prop where
  rising : Reporter.Rising size t.callbacks t.reporter.snapshot
  transferred_eq : t.reporter.snapshot.transferred = Reporter.sum t.reporter.segments
  length_eq : t.reporter.segments.length = t.table.segments.length
  complete : ∀ (i : Nat) (s : Segment), t.table.segments[i]? = some s → s.isComplete = true →
    t.reporter.segments[i]? = some s.committed
  fetched : ∀ (i : Nat) (s : Segment) (w : Worker), t.table.segments[i]? = some s →
    w ∈ t.workers → w.slot = Plan.slot i s →
    t.reporter.segments[i]? = some (max s.committed w.progress)

variable {size : Int} {table : Table} {p : PartialFile} {reporter : Reporter}
  {replies : List Reply} {t t' t₀ u : Transfer}

/-- Updates tell the size of the file. -/
theorem Accounts.total_eq (h : Accounts size t) : t.reporter.snapshot.total = size :=
  h.rising.total_eq _ (by simp)

/-- Only the workers, the table and the reporter matter. -/
theorem Accounts.congr (h : Accounts size t) (htable : t'.table = t.table)
    (hworkers : t'.workers = t.workers) (hreporter : t'.reporter = t.reporter)
    (hcallbacks : t'.callbacks = t.callbacks) : Accounts size t' := by
  obtain ⟨hrising, htransferred, hlength, hcomplete, hfetched⟩ := h
  constructor <;> simp only [htable, hworkers, hreporter, hcallbacks] <;> assumption

/-- Before a worker has received anything, the committed bytes are counted. -/
theorem Planned.accounts (h : Planned size t)
    (hrising : Reporter.Rising size t.callbacks t.reporter.snapshot)
    (hsegments : t.reporter.segments = t.table.segments.map Segment.session)
    (htransferred : t.reporter.snapshot.transferred = Reporter.sum t.reporter.segments) :
    Accounts size t := by
  have hsession : ∀ (i : Nat) (s : Segment), t.table.segments[i]? = some s →
      t.reporter.segments[i]? = some s.committed := by
    intro i s hs
    rw [hsegments, List.getElem?_map, hs, ← h.begun s (List.mem_of_getElem? hs)]
    rfl
  refine ⟨hrising, htransferred, by rw [hsegments, List.length_map], fun i s hs _ => hsession i s hs,
    fun i s w hs hw hslot => ?_⟩
  have hvalid := h.known.partition.valid s (List.mem_of_getElem? hs)
  have hstart := (Plan.resumeStart_bounds hvalid.committed_nonneg).2
  have hprogress : w.progress ≤ s.committed := by
    rw [Worker.progress, (h.idle w hw).2.2, hslot]
    change Plan.resumeStart s - s.start + 0 ≤ s.committed
    omega
  rw [hsession i s hs, max_eq_left hprogress]

/-- A run begins with the sum of the committed bytes. -/
theorem begin_accounts (hknown : table.Known size) (htotal : reporter.snapshot.total = size) :
    Accounts size (begin table p reporter) :=
  (planned_begin hknown).accounts (Reporter.Rising.first htotal) rfl rfl

/-- The replies lower nothing: a plan that collapses is fresh, so nothing of it was counted. -/
theorem accept_accounts (hknown : table.Known size) (htotal : reporter.snapshot.total = size)
    (haccept : (begin table p reporter).accept replies = .ok t) :
    Accounts size t ∧ t.reporter.segments = t.table.segments.map Segment.session ∧
      (begin table p reporter).reporter.snapshot.transferred ≤
        t.reporter.snapshot.transferred := by
  have hplanned := (@planned_begin size table p reporter hknown).accept haccept
  cases accept_accepts haccept with
  | each workers =>
    exact ⟨hplanned.accounts (Reporter.Rising.first htotal) rfl rfl, rfl, le_rfl⟩
  | whole w others length? rest hfresh =>
    have hle : Reporter.sum (table.begin.segments.map Segment.session) ≤ Reporter.sum [0] := by
      have hzero : ∀ n ∈ table.begin.segments.map Segment.session, n = 0 := by
        intro n hn
        obtain ⟨s, hs, rfl⟩ := List.mem_map.mp hn
        rw [Table.begin_session hs]
        exact hknown.begin.uncommitted hfresh s hs
      rw [List.eq_replicate_of_mem hzero]
      induction (table.begin.segments.map Segment.session).length with
      | zero => exact le_rfl
      | succ n ih => simpa [Reporter.sum, List.replicate_succ] using ih
    have hsegments : ((begin table p reporter).collapse length?).reporter.segments =
        ((begin table p reporter).collapse length?).table.segments.map Segment.session := by
      have hwhole : (begin table p reporter).table.whole = _ := hknown.begin.whole_eq
      simp [collapse, Table.collapse, hwhole, Reporter.reset]
    exact ⟨hplanned.accounts (Reporter.Rising.first htotal) hsegments rfl, hsegments, hle⟩

/-- Preparing the file counts nothing. -/
theorem Accounts.prepare (h : Accounts size t) {fault? : Option IoError}
    (hprepare : t.prepare = (t', fault?)) : Accounts size t' ∧ t'.reporter = t.reporter := by
  have hfile := prepare_file hprepare
  generalize t'.file = p at hfile
  subst hfile
  exact ⟨h.congr rfl rfl rfl rfl, rfl⟩

/-! ## Bodies that arrive -/

/-- What is known of a run while bodies arrive, as far as the two accounts are concerned. -/
structure Counting (size : Int) (t : Transfer) : Prop where
  partition : Plan.IsPartition size t.table.segments
  slots_eq : t.workers.map (·.slot) = Plan.resume t.table.segments
  sound : ∀ w ∈ t.workers, w.slot.IsSound ∧ w.Sound t.file
  accounts : Accounts size t

namespace Counting

theorem mem_slot (h : Counting size t) {w : Worker} (hw : w ∈ t.workers) :
    ∃ i s, t.table.segments[i]? = some s ∧ s.isComplete = false ∧ w.slot = Plan.slot i s := by
  have hmem : w.slot ∈ t.workers.map (·.slot) := List.mem_map_of_mem hw
  rw [h.slots_eq] at hmem
  exact Plan.mem_resume.mp hmem

/-- A segment is complete, or has a worker. -/
theorem segment_cases (h : Counting size t) {i : Nat} {s : Segment}
    (hs : t.table.segments[i]? = some s) :
    s.isComplete = true ∨ ∃ w ∈ t.workers, w.slot = Plan.slot i s := by
  cases hc : s.isComplete with
  | true => exact Or.inl rfl
  | false =>
    have hmem : Plan.slot i s ∈ t.workers.map (·.slot) := by
      rw [h.slots_eq]
      exact Plan.mem_resume.mpr ⟨i, s, hs, hc, rfl⟩
    obtain ⟨w, hw, hslot⟩ := List.mem_map.mp hmem
    exact Or.inr ⟨w, hw, hslot⟩

/-- Different workers stand for different segments. -/
theorem index_ne (h : Counting size t) {i j : Nat} {v w : Worker} (hv : t.workers[i]? = some v)
    (hw : t.workers[j]? = some w) (hij : i ≠ j) : v.slot.index ≠ w.slot.index := by
  have hresume : (Plan.resume t.table.segments).Pairwise fun a b => a.index < b.index :=
    Plan.pairwise_resume
  rw [← h.slots_eq] at hresume
  have hindices := List.pairwise_iff_getElem.mp (List.pairwise_map.mp hresume)
  obtain ⟨hi, rfl⟩ := List.getElem?_eq_some_iff.mp hv
  obtain ⟨hj, rfl⟩ := List.getElem?_eq_some_iff.mp hw
  rcases Nat.lt_or_gt_of_ne hij with hlt | hgt
  · exact Nat.ne_of_lt (hindices i j hi hj hlt)
  · exact Nat.ne_of_gt (hindices j i hj hi hgt)

/-- No segment is counted beyond its range, so no more is counted than there is. -/
theorem le_size (h : Counting size t) : t.reporter.snapshot.transferred ≤ size := by
  rw [h.accounts.transferred_eq, ← h.partition.sum_length]
  refine Reporter.sum_le_sum (by rw [h.accounts.length_eq, List.length_map]) fun i a b ha hb => ?_
  rw [List.getElem?_map] at hb
  obtain ⟨s, hs, rfl⟩ := Option.map_eq_some_iff.mp hb
  have hvalid := h.partition.valid s (List.mem_of_getElem? hs)
  have hcommitted := hvalid.committed_le
  rcases h.segment_cases hs with hc | ⟨w, hw, hslot⟩
  · rw [h.accounts.complete i s hs hc] at ha
    exact Option.some.inj ha ▸ hcommitted
  · rw [h.accounts.fetched i s w hs hw hslot] at ha
    obtain ⟨hsound, haccount⟩ := h.sound w hw
    have hlength := hsound.length_eq
    have hle := haccount.received_le
    have hstart : w.slot.start = s.start := by rw [hslot]; rfl
    have hlast : w.slot.last = s.last := by rw [hslot]; rfl
    obtain rfl := Option.some.inj ha
    refine max_le hcommitted ?_
    unfold Worker.progress
    omega

end Counting

section Incidents

variable {i : Nat} {w w' : Worker}

/-- Nothing is counted when a worker receives nothing. -/
theorem Accounts.keep (h : Accounts size t) (hw : t.workers[i]? = some w) (hslot : w'.slot = w.slot)
    (hreceived : w'.received = w.received) (hworkers : t'.workers = t.workers.set i w')
    (htable : t'.table = t.table) (hreporter : t'.reporter = t.reporter)
    (hcallbacks : t'.callbacks = t.callbacks) : Accounts size t' := by
  obtain ⟨hrising, htransferred, hlength, hcomplete, hfetched⟩ := h
  refine ⟨?_, ?_, ?_, ?_, ?_⟩ <;> simp only [htable, hreporter, hcallbacks]
  · exact hrising
  · exact htransferred
  · exact hlength
  · exact hcomplete
  · intro j s v hs hv hvslot
    rw [hworkers] at hv
    rcases List.mem_or_eq_of_mem_set hv with hv | rfl
    · exact hfetched j s v hs hv hvslot
    · rw [hfetched j s w hs (List.mem_of_getElem? hw) (hslot ▸ hvslot), Worker.progress,
        Worker.progress, hslot, hreceived]

/-- The progress of a worker that received something covers what was counted before: the first
byte that comes in is the last committed one, or none was committed. -/
theorem Counting.raised (h : Counting size t) {j : Nat} {s : Segment}
    (hs : t.table.segments[j]? = some s) (hwslot : w.slot = Plan.slot j s)
    (hslot : w'.slot = w.slot) (hreceived : w.received ≤ w'.received) (hpos : 0 < w'.received) :
    s.committed ≤ w'.progress ∧ max s.committed w.progress ≤ w'.progress := by
  have hvalid := h.partition.valid s (List.mem_of_getElem? hs)
  have hstart : w.slot.start = s.start := by rw [hwslot]; rfl
  have hresume : w.slot.resumeStart = Plan.resumeStart s := by rw [hwslot]; rfl
  have hbehind := (Plan.resumeStart_bounds hvalid.committed_nonneg).1
  have hcommitted : s.committed ≤ w'.progress := by
    unfold Worker.progress
    rw [hslot]
    omega
  refine ⟨hcommitted, max_le hcommitted ?_⟩
  unfold Worker.progress
  rw [hslot]
  omega

/-- A worker that receives something raises the count of its segment to its progress. -/
theorem Counting.take (h : Counting size t) (hw : t.workers[i]? = some w)
    (hslot : w'.slot = w.slot) (hreceived : w.received ≤ w'.received) (hpos : 0 < w'.received)
    {p' : PartialFile} {now : Nat} :
    Accounts size ((t.advance i (w', p', none)).report w' now) ∧
      t.reporter.snapshot.transferred ≤
        ((t.advance i (w', p', none)).report w' now).reporter.snapshot.transferred := by
  obtain ⟨j, s, hs, hincomplete, hwslot⟩ := h.mem_slot (List.mem_of_getElem? hw)
  obtain ⟨hcommitted, hraised⟩ := h.raised hs hwslot hslot hreceived hpos
  have hindex : w'.slot.index = j := by rw [hslot, hwslot]; rfl
  have hold := h.accounts.fetched j s w hs (List.mem_of_getElem? hw) hwslot
  have hsize : 0 < size := by
    have hbelow := h.partition.last_lt (List.mem_of_getElem? hs)
    obtain ⟨hnonneg, hrange, -⟩ := h.partition.valid s (List.mem_of_getElem? hs)
    omega
  obtain ⟨hsegments, hsnapshot, hrising⟩ := h.accounts.rising.update hsize
    h.accounts.transferred_eq hold hraised w'.segmentLength? now
  have hreport : ((t.advance i (w', p', none)).report w' now).reporter =
      (t.reporter.update j w'.progress w'.segmentLength? now).1 := by
    rw [← hindex]
    rfl
  have hcallbacks : ((t.advance i (w', p', none)).report w' now).callbacks =
      t.callbacks ++ (t.reporter.update j w'.progress w'.segmentLength? now).2.toList := by
    rw [← hindex]
    rfl
  refine ⟨⟨?_, ?_, ?_, ?_, ?_⟩, ?_⟩
  · rw [hreport, hcallbacks]
    exact hrising
  · rw [hreport, hsnapshot, hsegments]
  · rw [hreport, hsegments, List.length_set]
    exact h.accounts.length_eq
  · intro k r hr hc
    have hkj : j ≠ k := by
      rintro rfl
      obtain rfl := Option.some.inj (hs.symm.trans hr)
      rw [hincomplete] at hc
      contradiction
    rw [hreport, hsegments, List.getElem?_set_ne hkj]
    exact h.accounts.complete k r hr hc
  · intro k r v hr hv hvslot
    change t.table.segments[k]? = some r at hr
    obtain ⟨n, hn⟩ := List.getElem?_of_mem hv
    change (t.workers.set i w')[n]? = some v at hn
    have hk : v.slot.index = k := by rw [hvslot]; rfl
    rw [hreport, hsegments]
    by_cases hin : i = n
    · subst hin
      rw [List.getElem?_set_self (List.getElem?_eq_some_iff.mp hw).1] at hn
      obtain rfl := Option.some.inj hn
      obtain rfl : j = k := hindex.symm.trans hk
      obtain rfl := Option.some.inj (hs.symm.trans hr)
      rw [List.getElem?_set_self (List.getElem?_eq_some_iff.mp hold).1, max_eq_right hcommitted]
    · rw [List.getElem?_set_ne hin] at hn
      have hne := h.index_ne hw hn hin
      rw [List.getElem?_set_ne (by rwa [← hindex, ← hk, hslot])]
      exact h.accounts.fetched k r v hr (List.mem_of_getElem? hn) hvslot
  · rw [hreport, hsnapshot, h.accounts.transferred_eq]
    exact Reporter.sum_le_sum_set hold hraised

/-- An incident keeps the account, and never lowers what is published. -/
theorem Counting.step (h : Counting size t) {now : Nat} {incident : Incident}
    (hexpects : ∀ w ∈ t.workers, w.state = .streaming → w.Expects)
    (hchunk : ∀ i data, incident = .chunk i data → data ≠ []) (hstep : Step t now incident t') :
    Accounts size t' ∧ t.reporter.snapshot.transferred ≤ t'.reporter.snapshot.transferred := by
  have hbounded : ∀ w ∈ t.workers, w.isUnbounded = false := by
    intro w hw
    obtain ⟨j, s, hs, -, hslot⟩ := h.mem_slot hw
    have hlast := h.partition.bounded (List.mem_of_getElem? hs)
    rw [Worker.isUnbounded, hslot]
    exact beq_eq_false_iff_ne.mpr (ne_of_lt hlast)
  have hkept : ∀ {i : Nat} {w w' : Worker} {p' : PartialFile}, t.workers[i]? = some w →
      Worker.Step w t.file [] w' p' → t'.workers = t.workers.set i w' → t'.table = t.table →
      t'.reporter = t.reporter → t'.callbacks = t.callbacks →
      Accounts size t' ∧ t.reporter.snapshot.transferred ≤ t'.reporter.snapshot.transferred := by
    intro i w w' p' hw hstep hworkers htable hreporter hcallbacks
    have haccount := (h.sound w (List.mem_of_getElem? hw)).2
    have hreceived : w'.received = w.received := by
      rw [← hstep.sound.length_taken, hstep.taken_eq, List.append_nil, haccount.length_taken]
    refine ⟨h.accounts.keep hw hstep.slot_eq hreceived hworkers htable hreporter hcallbacks, ?_⟩
    rw [hreporter]
  cases hstep with
  | halted => exact ⟨h.accounts, le_rfl⟩
  | stopped => exact ⟨h.accounts.congr rfl rfl rfl rfl, le_rfl⟩
  | unheard => exact ⟨h.accounts, le_rfl⟩
  | refused i data w w' p' cause _ hstream hreceive =>
    obtain ⟨hw, hstate⟩ := streaming?_eq_some.mp hstream
    have hmem := List.mem_of_getElem? hw
    obtain ⟨hslot, haccount⟩ := h.sound w hmem
    have hreceived := (Worker.receive_step hslot haccount (hexpects w hmem hstate)
      (fun hu => by rw [hbounded w hmem] at hu; contradiction) hreceive).1
    exact hkept hw hreceived rfl rfl rfl rfl
  | received i data w w' p' _ hstream hreceive =>
    obtain ⟨hw, hstate⟩ := streaming?_eq_some.mp hstream
    have hmem := List.mem_of_getElem? hw
    obtain ⟨hslot, haccount⟩ := h.sound w hmem
    have hreceived := (Worker.receive_step hslot haccount (hexpects w hmem hstate)
      (fun hu => by rw [hbounded w hmem] at hu; contradiction) hreceive).1
    have hlength := hreceived.sound.length_taken
    rw [hreceived.taken_eq, Option.isSome_none, if_neg Bool.false_ne_true, List.length_append,
      List.length_take, haccount.length_taken] at hlength
    have hdata := List.length_pos_iff.mpr (hchunk i data rfl)
    have hroom := hslot.length_eq
    have hrange := hslot.resumeStart_le
    exact h.take hw hreceived.slot_eq (by omega) (by omega)
  | ended i w w' p' fault? _ hstream hfinish =>
    obtain ⟨hw, hstate⟩ := streaming?_eq_some.mp hstream
    have hmem := List.mem_of_getElem? hw
    obtain ⟨hslot, haccount⟩ := h.sound w hmem
    exact hkept hw (Worker.finish_step hslot haccount (hexpects w hmem hstate) hfinish).1 rfl rfl
      rfl rfl
  | broken i w _ hstream =>
    have hw := (streaming?_eq_some.mp hstream).1
    exact hkept hw (fail_step (h.sound w (List.mem_of_getElem? hw)).2) rfl rfl rfl rfl

end Incidents

/-! ## Streams -/

section Stream

variable {incidents done rest : List (Nat × Incident)}

/-- The bytes that were transferred, as a run publishes them. -/
def published (t : Transfer) : Int := t.reporter.snapshot.transferred

/-- Every chunk brings something. -/
def NonemptyChunks (incidents : List (Nat × Incident)) : Prop :=
  ∀ x ∈ incidents, ∀ i data, x.2 = .chunk i data → data ≠ []

theorem NonemptyChunks.front (h : NonemptyChunks (done ++ rest)) : NonemptyChunks done :=
  fun x hx => h x (List.mem_append_left _ hx)

theorem NonemptyChunks.take (h : NonemptyChunks incidents) (k : Nat) :
    NonemptyChunks (incidents.take k) :=
  fun x hx => h x (List.mem_of_mem_take hx)

/-- What has arrived so far is counted once. -/
theorem Planned.counting (h : Planned size t₀) (hfollows : Follows t₀ done t)
    (haccounts : Accounts size t) : Counting size t := by
  refine ⟨hfollows.table_eq ▸ h.known.partition, ?_, fun w hw => ?_, haccounts⟩
  · rw [hfollows.streamed.slots_eq, h.slots_eq, hfollows.table_eq]
  · obtain ⟨i, hi⟩ := List.getElem?_of_mem hw
    exact ⟨hfollows.streamed.slot_isSound h.ready hi, (hfollows.streamed.tracks i w hi).sound⟩

theorem Planned.follows (h : Planned size t₀) (incidents : List (Nat × Incident)) :
    Follows t₀ incidents (t₀.stream incidents) :=
  stream_follows h.ready (h.fits _)

/-- Before any incident. -/
theorem Planned.count_first (h : Planned size t₀) (haccounts : Accounts size t₀) :
    Counting size t₀ :=
  h.counting (h.follows []) haccounts

/-- A worker that is still streaming knows how much it is to get. -/
theorem Planned.expects_stream (h : Planned size t₀) :
    ∀ w ∈ (t₀.stream incidents).workers, w.state = .streaming → w.Expects := by
  intro w hw
  obtain ⟨i, hi⟩ := List.getElem?_of_mem hw
  exact ((h.follows incidents).streamed.tracks i w hi).expects

/-- One more incident. -/
theorem Planned.count_snoc (h : Planned size t₀) {x : Nat × Incident}
    (hchunks : NonemptyChunks (done ++ [x])) (hcounting : Counting size (t₀.stream done)) :
    Counting size (t₀.stream (done ++ [x])) ∧
      (t₀.stream done).published ≤ (t₀.stream (done ++ [x])).published := by
  have hfollows := h.follows (done ++ [x])
  rw [stream_snoc] at hfollows ⊢
  obtain ⟨haccounts, hle⟩ := hcounting.step h.expects_stream (hchunks x (by simp))
    (step_deliver (t₀.stream done) x.1 x.2)
  exact ⟨h.counting hfollows haccounts, hle⟩

/-- Bodies are counted however they arrive. -/
theorem Planned.count_stream (h : Planned size t₀) (haccounts : Accounts size t₀)
    (hchunks : NonemptyChunks incidents) : Counting size (t₀.stream incidents) := by
  induction incidents using List.reverseRecOn with
  | nil => exact h.count_first haccounts
  | append_singleton done x ih => exact (h.count_snoc hchunks (ih hchunks.front)).1

/-- What is published never goes down while bodies arrive. -/
theorem Planned.published_mono (h : Planned size t₀) (haccounts : Accounts size t₀)
    (hchunks : NonemptyChunks (done ++ rest)) :
    (t₀.stream done).published ≤ (t₀.stream (done ++ rest)).published := by
  induction rest using List.reverseRecOn with
  | nil => rw [List.append_nil]
  | append_singleton rest x ih =>
    rw [← List.append_assoc] at hchunks ⊢
    exact (ih hchunks.front).trans
      (h.count_snoc hchunks (h.count_stream haccounts hchunks.front)).2

/-! ## Files that take every write -/

/-- What workers received has a place in the file. -/
theorem Planned.hasRoom (h : Planned size t₀) {bodies : Nat → Bytes}
    (hstreamed : Streamed t₀ bodies t)
    (hroom : t₀.file.payloadOffset + size.toNat ≤ OpenFile.maxPosition) {i : Nat} {w : Worker}
    (hw : t.workers[i]? = some w) : w.HasRoom t.file := by
  obtain ⟨w₀, hw₀, hslot⟩ := hstreamed.slot_eq hw
  have hinside := h.slot_le (List.mem_of_getElem? hw₀)
  have hreceived := (hstreamed.tracks i w hw).sound.received_le
  rw [hslot] at hinside
  rw [Worker.HasRoom, hstreamed.offset_eq]
  omega

/-- No worker is refused when it flushes. -/
theorem Planned.flush_reliable (h : Planned size t₀) {bodies : Nat → Bytes}
    (hstreamed : Streamed t₀ bodies t) (hreliable : t.file.file.Reliable)
    (hroom : t₀.file.payloadOffset + size.toNat ≤ OpenFile.maxPosition) {i : Nat}
    {w w' : Worker} {p' : PartialFile} {fault? : Option IoError} (hw : t.workers[i]? = some w)
    (hflush : w.flush t.file = (w', p', fault?)) : fault? = none ∧ p'.file.Reliable :=
  Worker.flush_reliable (hstreamed.slot_isSound h.ready hw) (hstreamed.tracks i w hw).sound
    hreliable (h.hasRoom hstreamed hroom hw) hflush

/-- Nothing that arrives makes a medium without faults fail. -/
theorem Planned.stream_reliable (h : Planned size t₀) (hreliable : t₀.file.file.Reliable)
    (hroom : t₀.file.payloadOffset + size.toNat ≤ OpenFile.maxPosition) :
    (t₀.stream incidents).file.file.Reliable := by
  induction incidents using List.reverseRecOn with
  | nil => exact hreliable
  | append_singleton done x ih =>
    have hstreamed := (h.follows done).streamed
    rw [stream_snoc]
    have hstep := step_deliver (t₀.stream done) x.1 x.2
    generalize x.2 = incident, (t₀.stream done).deliver x.1 x.2 = t' at hstep ⊢
    cases hstep with
    | halted | stopped | unheard | broken => exact ih
    | refused i data w w' p' cause _ hstream hreceive =>
      have hw := (streaming?_eq_some.mp hstream).1
      have hfault := (Worker.receive_reliable (hstreamed.slot_isSound h.ready hw)
        (hstreamed.tracks i w hw).sound ih (h.hasRoom hstreamed hroom hw) hreceive).1
      contradiction
    | received i data w w' p' _ hstream hreceive =>
      have hw := (streaming?_eq_some.mp hstream).1
      exact (Worker.receive_reliable (hstreamed.slot_isSound h.ready hw)
        (hstreamed.tracks i w hw).sound ih (h.hasRoom hstreamed hroom hw) hreceive).2.1
    | ended i w w' p' fault? _ hstream hfinish =>
      have hw := (streaming?_eq_some.mp hstream).1
      have hfile : p' = (w.flush (t₀.stream done).file).2.1 := by
        rw [← Worker.finish_file, hfinish]
      exact hfile ▸ (h.flush_reliable hstreamed ih hroom hw rfl).2

/-- Nothing is left in a buffer when a file that takes every write is closed. -/
theorem Planned.flushAll_reliable (h : Planned size t₀) {bodies : Nat → Bytes}
    (hstreamed : Streamed t₀ bodies t) (hreliable : t.file.file.Reliable)
    (hroom : t₀.file.payloadOffset + size.toNat ≤ OpenFile.maxPosition) :
    ∀ w ∈ t.flushAll.workers, w.buffer = [] := by
  have hall := flushAll_induction (motive := fun n u => (Streamed t₀ bodies u ∧ Flushed t n u) ∧
      u.file.file.Reliable ∧ ∀ i w, i < n → u.workers[i]? = some w → w.buffer = []) t
    ⟨⟨hstreamed, flushed_zero t⟩, hreliable, fun _ _ hi => absurd hi (Nat.not_lt_zero _)⟩ ?_
  · obtain ⟨⟨-, hflushed⟩, -, hempty⟩ := hall
    intro w hw
    obtain ⟨i, hi⟩ := List.getElem?_of_mem hw
    exact hempty i w (hflushed.length_eq ▸ (List.getElem?_eq_some_iff.mp hi).1) hi
  · rintro n u w hw ⟨⟨hu, hflushed⟩, hfile, hempty⟩
    have hun : u.workers[n]? = some w := (hflushed.later n (Nat.le_refl n)).trans hw
    refine ⟨⟨hu.flushOne h.ready hun, hflushed.next hw rfl⟩, ?_⟩
    cases hflush : w.flush u.file with
    | mk w' result =>
      obtain ⟨p', fault?⟩ := result
      have hresult := Worker.flush_result hflush
      obtain ⟨rfl, hafter⟩ := h.flush_reliable hu hfile hroom hun hflush
      obtain rfl : w' = w.flushed := hresult
      rw [flushOne_eq hflush]
      refine ⟨hafter, fun i v hi hv => ?_⟩
      by_cases hin : i = n
      · subst hin
        rw [List.getElem?_set_self (List.getElem?_eq_some_iff.mp hun).1] at hv
        obtain rfl := Option.some.inj hv
        rfl
      · rw [List.getElem?_set_ne (Ne.symm hin)] at hv
        exact hempty i v (by omega) hv

end Stream

/-! ## Closing -/

/-- A record claims at most what is counted of its segment, and exactly that when nothing is left
in a buffer. -/
theorem Settled.session_le {bodies : Nat → Bytes} (h : Settled size t₀ bodies u)
    (hcounting : Counting size t) (htable : t.table = t₀.table)
    (hflushed : Flushed t t.workers.length u) {i : Nat} {s' : Segment} {n : Int}
    (hs' : u.table.segments[i]? = some s') (hn : t.reporter.segments[i]? = some n) :
    s'.session ≤ n ∧ ((∀ w ∈ u.workers, w.buffer = []) → s'.session = n) := by
  obtain ⟨s, hs, -⟩ := h.origin hs'
  have hst : t.table.segments[i]? = some s := htable ▸ hs
  rcases h.record_cases hs with ⟨hc, hsame⟩ | ⟨-, w, hw, hslot, hrecord⟩
  · obtain rfl := Option.some.inj (hs'.symm.trans hsame)
    rw [hcounting.accounts.complete i s' hst hc] at hn
    obtain rfl := Option.some.inj hn
    have hbegun := (h.begun hs).1
    exact ⟨hbegun.le, fun _ => hbegun⟩
  · obtain rfl := Option.some.inj (hs'.symm.trans hrecord)
    obtain ⟨j, hj⟩ := List.getElem?_of_mem hw
    obtain ⟨v, hv, hkept⟩ := hflushed.kept j w hj
    -- flushing changed neither the slot of the worker nor what it received
    obtain ⟨hvslot, hvreceived⟩ : v.slot = w.slot ∧ v.received = w.received := by
      rcases hkept with rfl | rfl <;> exact ⟨rfl, rfl⟩
    rw [hcounting.accounts.fetched i s v hst (List.mem_of_getElem? hv) (hvslot.trans hslot)] at hn
    obtain rfl := Option.some.inj hn
    have hreceived := (h.sound hw).2.received_eq
    have hprogress : v.progress = w.flushedProgress + w.buffer.length := by
      unfold Worker.progress Worker.flushedProgress
      rw [hvslot, hvreceived, hreceived]
      omega
    rw [hprogress]
    dsimp only
    refine ⟨max_le_max_left _ (by omega), fun hempty => ?_⟩
    rw [hempty w hw, List.length_nil, Nat.cast_zero, Int.add_zero]

/-- No more is recorded than was counted, and as much once nothing is buffered. -/
theorem Settled.sessionTotal_le {bodies : Nat → Bytes} (h : Settled size t₀ bodies u)
    (hcounting : Counting size t) (htable : t.table = t₀.table)
    (hflushed : Flushed t t.workers.length u) :
    u.table.sessionTotal ≤ t.published ∧
      ((∀ w ∈ u.workers, w.buffer = []) → u.table.sessionTotal = t.published) := by
  have hlength : (u.table.segments.map Segment.session).length = t.reporter.segments.length := by
    rw [List.length_map, hcounting.accounts.length_eq, htable, h.segments_eq, length_recordAll]
  have heach : ∀ (i : Nat) (a n : Int), (u.table.segments.map Segment.session)[i]? = some a →
      t.reporter.segments[i]? = some n →
        a ≤ n ∧ ((∀ w ∈ u.workers, w.buffer = []) → a = n) := by
    intro i a n ha hn
    rw [List.getElem?_map] at ha
    obtain ⟨s', hs', rfl⟩ := Option.map_eq_some_iff.mp ha
    exact h.session_le hcounting htable hflushed hs' hn
  rw [Table.sessionTotal, ← Reporter.sum_session, published, hcounting.accounts.transferred_eq]
  refine ⟨Reporter.sum_le_sum hlength fun i a n ha hn => (heach i a n ha hn).1, fun hempty => ?_⟩
  refine le_antisymm (Reporter.sum_le_sum hlength fun i a n ha hn => (heach i a n ha hn).1) ?_
  exact Reporter.sum_le_sum hlength.symm fun i n a hn ha => ((heach i a n ha hn).2 hempty).ge

/-- The last flushes are not told. -/
theorem flushAll_heard (t : Transfer) :
    t.flushAll.reporter = t.reporter ∧ t.flushAll.callbacks = t.callbacks :=
  flushAll_induction (motive := fun _ u => u.reporter = t.reporter ∧ u.callbacks = t.callbacks) t
    ⟨rfl, rfl⟩ fun _ _ _ _ h => h

/-- A checkpoint publishes nothing, and records no other progress. -/
theorem checkpoint_heard (u : Transfer) :
    u.checkpoint.reporter = u.reporter ∧ u.checkpoint.callbacks = u.callbacks ∧
      u.checkpoint.table.sessionTotal = u.table.sessionTotal := by
  refine ⟨?_, ?_, ?_⟩
  · unfold checkpoint
    split <;> rfl
  · unfold checkpoint
    split <;> rfl
  · rw [Table.sessionTotal, Table.sessionTotal, checkpoint_segments, ← Reporter.sum_session,
      ← Reporter.sum_session]
    split
    · rw [List.map_map]
      rfl
    · rfl

/-- What a run has published and recorded in the end. -/
structure Closed (size : Int) (before : Int) (outcome : Except DownloadError Outcome)
    (t : Transfer) : Prop where
  le_published : before ≤ t.published
  le_size : t.published ≤ size
  rising : Reporter.Rising size t.callbacks t.reporter.snapshot
  recorded_le : t.table.sessionTotal ≤ t.published
  recorded_eq : (∀ w ∈ t.workers, w.buffer = []) → t.table.sessionTotal = t.published
  emptied : ∀ o, outcome = .ok o → ∀ w ∈ t.workers, w.buffer = []

/-- The two accounts agree when a run is closed. -/
theorem Planned.closes (h : Planned size t₀) {incidents : List (Nat × Incident)}
    (hcounting : Counting size (t₀.stream incidents)) {now : Nat}
    {outcome : Except DownloadError Outcome}
    (hclose : (t₀.stream incidents).close now = (outcome, t)) :
    Closed size (t₀.stream incidents).published outcome t := by
  have hsettled := h.settled incidents
  have htable := (h.follows incidents).table_eq
  obtain ⟨hle, heq⟩ := hsettled.sessionTotal_le hcounting htable (flushAll_flushed _)
  obtain ⟨hreporter, hcallbacks⟩ := flushAll_heard (t₀.stream incidents)
  have hrising := hcounting.accounts.rising
  have hsize := hcounting.le_size
  have hcloses := close_closes hclose
  generalize (t₀.stream incidents).flushAll = u at *
  have hcommit : ∀ outcome : Except DownloadError Outcome,
      (∀ o, outcome = .ok o → u.checkpoint.fatal? = none) →
        Closed size (t₀.stream incidents).published outcome u.checkpoint := by
    intro outcome hfatal
    obtain ⟨hreporter', hcallbacks', htotal⟩ := checkpoint_heard u
    have hpublished : u.checkpoint.published = (t₀.stream incidents).published := by
      rw [published, hreporter', hreporter, published]
    refine ⟨hpublished.ge, hpublished.le.trans hsize, ?_, ?_, ?_, ?_⟩
    · rw [hcallbacks', hreporter', hcallbacks, hreporter]
      exact hrising
    · rw [htotal, hpublished]
      exact hle
    · rw [checkpoint_workers, htotal, hpublished]
      exact heq
    · rw [checkpoint_workers]
      exact fun o ho => hsettled.emptied (checkpoint_fatal (hfatal o ho))
  cases hcloses with
  | completed hrunning hcomplete =>
    have hfull := hsettled.isComplete_iff.mp hcomplete
    have hpayload : u.payloadLength = size := by rw [payloadLength, hsettled.size_eq]; rfl
    have hsnapshot := announce_snapshot u now
    have hpublished : (u.announce now).published = size := by
      rw [published, hsnapshot, hpayload]
    have hrecorded : (u.announce now).table.sessionTotal = size :=
      hsettled.sessionTotal_eq_iff.mpr hfull
    refine ⟨hpublished ▸ hsize, hpublished.le, ?_, ?_, ?_, fun _ _ => ?_⟩
    · have hraised : Reporter.Rising size (t₀.stream incidents).callbacks
          { total := size, transferred := size } := hrising.raise rfl hsize
      rw [← hcallbacks] at hraised
      have hemit := Reporter.Rising.emit (r := { u.reporter with
        snapshot := { total := size, transferred := size } }) hraised now
      rw [← hpayload] at hemit ⊢
      exact hemit
    · rw [hrecorded, hpublished]
    · rw [hrecorded, hpublished]
      exact fun _ => rfl
    · exact hsettled.emptied (isHalted_eq_false.mp hrunning).1
  | failed e hfatal => exact hcommit _ fun o ho => by contradiction
  | interrupted hfatal => exact hcommit _ fun _ _ => hfatal
  | incomplete hfatal => exact hcommit _ fun _ _ => hfatal

/-! ## Runs -/

/-- The states while bodies arrive, one after each incident. -/
def moments (t : Transfer) (incidents : List (Nat × Incident)) : List Transfer :=
  (List.range (incidents.length + 1)).map fun k => t.stream (incidents.take k)

/-- The states that a run goes through, from its beginning to its end. -/
def stages (table : Table) (p : PartialFile) (reporter : Reporter) (course : Course) :
    List Transfer :=
  let t := begin table p reporter
  t :: match course.replies? with
    | none => []
    | some replies =>
      match t.accept replies with
      | .error _ => []
      | .ok t =>
        t :: match t.prepare with
          | (t, some _) => [t]
          | (t, none) =>
            t.moments course.incidents ++ [((t.stream course.incidents).close course.closing).2]

/-- What is published in some states of a run, one after the other, and what is recorded in the
last of them. -/
structure Balances (size first : Int) (states : List Transfer) (t : Transfer) : Prop where
  first_eq : states.head?.map published = some first
  last_eq : states.getLast? = some t
  sorted : (states.map published).Pairwise (· ≤ ·)
  bounded : ∀ u ∈ states, u.reporter.snapshot.total = size ∧ u.published ≤ size
  /-- What the observer hears does not go down either. -/
  heard : Reporter.Rising size t.callbacks t.reporter.snapshot
  recorded_le : t.table.sessionTotal ≤ t.published
  recorded_eq : (∀ w ∈ t.workers, w.buffer = []) → t.table.sessionTotal = t.published

/-- One state, in which the two accounts are the same. -/
theorem Counting.balances (h : Counting size t)
    (hsegments : t.reporter.segments = t.table.segments.map Segment.session) :
    Balances size t.published [t] t := by
  have hrecorded : t.table.sessionTotal = t.published := by
    rw [published, h.accounts.transferred_eq, hsegments, Reporter.sum_session, Table.sessionTotal]
  refine ⟨rfl, rfl, List.pairwise_singleton _ _, ?_, h.accounts.rising, hrecorded.le,
    fun _ => hrecorded⟩
  intro u hu
  obtain rfl := List.mem_singleton.mp hu
  exact ⟨h.accounts.total_eq, h.le_size⟩

/-- A state before some others. -/
theorem Balances.cons {first : Int} {states : List Transfer} (h : Balances size first states t)
    (htotal : u.reporter.snapshot.total = size) (hle : u.published ≤ first) :
    Balances size u.published (u :: states) t := by
  obtain ⟨hfirst, hlast, hsorted, hbounded, hheard, hrecorded, hequal⟩ := h
  cases states with
  | nil => contradiction
  | cons v states =>
    obtain rfl : v.published = first := Option.some.inj hfirst
    have hall : ∀ x ∈ v :: states, u.published ≤ x.published := by
      intro x hx
      rcases List.mem_cons.mp hx with rfl | hx
      · exact hle
      · exact hle.trans ((List.pairwise_cons.mp hsorted).1 _ (List.mem_map_of_mem hx))
    refine ⟨rfl, hlast, ?_, ?_, hheard, hrecorded, hequal⟩
    · rw [List.map_cons, List.pairwise_cons]
      refine ⟨fun n hn => ?_, hsorted⟩
      obtain ⟨x, hx, rfl⟩ := List.mem_map.mp hn
      exact hall x hx
    · rw [List.forall_mem_cons]
      exact ⟨⟨htotal, hle.trans (hbounded v List.mem_cons_self).2⟩, hbounded⟩

/-- More incidents, more is published. -/
theorem Planned.published_take (h : Planned size t₀) (haccounts : Accounts size t₀)
    {incidents : List (Nat × Incident)} (hchunks : NonemptyChunks incidents) {j k : Nat}
    (hjk : j ≤ k) :
    (t₀.stream (incidents.take j)).published ≤ (t₀.stream (incidents.take k)).published := by
  have hsplit : incidents.take j ++ (incidents.take k).drop j = incidents.take k := by
    conv_rhs => rw [← List.take_append_drop j (incidents.take k), List.take_take,
      Nat.min_eq_left hjk]
  have hfront := hchunks.take k
  rw [← hsplit] at hfront ⊢
  exact h.published_mono haccounts hfront

/-- The states while bodies arrive, and the closed run. -/
theorem Planned.balances (h : Planned size t₀) (haccounts : Accounts size t₀)
    {incidents : List (Nat × Incident)} (hchunks : NonemptyChunks incidents)
    {outcome : Except DownloadError Outcome}
    (hclosed : Closed size (t₀.stream incidents).published outcome t) :
    Balances size t₀.published (t₀.moments incidents ++ [t]) t := by
  have hfinal : ∀ k, (t₀.stream (incidents.take k)).published ≤ t.published := by
    intro k
    have hle := h.published_take haccounts hchunks (Nat.le_max_left k incidents.length)
    rw [List.take_of_length_le (Nat.le_max_right _ _)] at hle
    exact hle.trans hclosed.le_published
  refine ⟨?_, by simp, ?_, ?_, hclosed.rising, hclosed.recorded_le, hclosed.recorded_eq⟩
  · simp [moments, List.range_succ_eq_map, stream]
  · rw [List.map_append, List.pairwise_append]
    refine ⟨?_, List.pairwise_singleton _ _, ?_⟩
    · rw [moments, List.map_map, List.pairwise_map]
      exact List.pairwise_lt_range.imp fun hlt => h.published_take haccounts hchunks hlt.le
    · intro a ha b hb
      obtain ⟨x, hx, rfl⟩ := List.mem_map.mp ha
      obtain ⟨k, -, rfl⟩ := List.mem_map.mp hx
      obtain rfl : b = t.published := by simpa using hb
      exact hfinal k
  · intro u hu
    rcases List.mem_append.mp hu with hu | hu
    · obtain ⟨k, -, rfl⟩ := List.mem_map.mp hu
      have hcounting := h.count_stream haccounts (hchunks.take k)
      exact ⟨hcounting.accounts.total_eq, hcounting.le_size⟩
    · obtain rfl := List.mem_singleton.mp hu
      exact ⟨hclosed.rising.total_eq _ (by simp), hclosed.le_size⟩

/-- Closing a run leaves its workers as they are. -/
theorem Closes.workers_eq {now : Nat} {outcome : Except DownloadError Outcome}
    (h : Closes u now outcome t) : t.workers = u.workers := by
  cases h with
  | completed => rfl
  | failed | interrupted | incomplete => exact checkpoint_workers u

section Run

variable {course : Course} {t₁ : Transfer}

/-- Nothing is left in a buffer when a run has a file that takes every write. -/
theorem close_reliable (hknown : table.Known size)
    (haccept : (begin table p reporter).accept replies = .ok t₁)
    (hprepare : t₁.prepare = (t₀, none)) (hreliable : p.file.Reliable)
    (hroom : table.headerSize + size.toNat ≤ OpenFile.maxPosition) :
    ∀ w ∈ (t₀.stream course.incidents).flushAll.workers, w.buffer = [] := by
  have hplanned₁ := (@planned_begin size table p reporter hknown).accept haccept
  have hplanned := hplanned₁.prepare hprepare
  obtain ⟨hfile, htable⟩ := accept_table haccept
  have hheader : t₁.table.headerSize ≤ table.headerSize := by
    rcases htable with htable | ⟨-, htable⟩
    · rw [htable]
      exact table.headerSize_begin.le
    · rw [htable]
      exact hknown.begin.headerSize_collapse.trans table.headerSize_begin.le
  have hroom₁ : t₁.table.headerSize + (t₁.table.size?.getD 0).toNat ≤ OpenFile.maxPosition := by
    rw [hplanned₁.known.size_eq, Option.getD_some]
    omega
  obtain ⟨t₂, hprepare₂, hreliable₂⟩ := prepare_reliable (by rw [hfile]; exact hreliable) hroom₁
  obtain ⟨rfl, -⟩ := Prod.mk.inj (hprepare₂.symm.trans hprepare)
  have hoffset : t₂.file.payloadOffset + size.toNat ≤ OpenFile.maxPosition := by
    rw [prepare_offset hprepare, (prepare_eq hprepare).1]
    omega
  exact hplanned.flushAll_reliable (hplanned.follows _).streamed
    (hplanned.stream_reliable hreliable₂ hoffset) hoffset

/-- **Published and recorded progress agree.**  Whatever a server answers, and in whatever order
chunks arrive, as long as none of them is empty: the published number begins with the sum of the
committed bytes, never goes down, and never exceeds the size, which is the total.  In the end it is
at least what the table records, and exactly that if the run ends without an error, or if the file
takes every write, or whenever nothing is left in a buffer. -/
theorem run_balances (hknown : table.Known size) (htotal : reporter.snapshot.total = size)
    (hchunks : NonemptyChunks course.incidents) :
    Balances size (Reporter.sum (table.segments.map Segment.committed))
        (stages table p reporter course) (run table p reporter course).2 ∧
      ((∃ outcome, (run table p reporter course).1 = .ok outcome) ∨
          p.file.Reliable ∧ table.headerSize + size.toNat ≤ OpenFile.maxPosition →
        (run table p reporter course).2.table.sessionTotal =
          (run table p reporter course).2.published) := by
  have hplanned := @planned_begin size table p reporter hknown
  have haccounts := @begin_accounts size table p reporter hknown htotal
  have hbegin := (hplanned.count_first haccounts).balances rfl
  have hfirst : (begin table p reporter).published =
      Reporter.sum (table.segments.map Segment.committed) := by
    rw [published, haccounts.transferred_eq]
    change Reporter.sum ((table.segments.map Segment.begin).map Segment.session) = _
    rw [List.map_map]
    rfl
  rw [← hfirst]
  have hends := run_ends table p reporter course
  generalize (run table p reporter course).1 = outcome,
    (run table p reporter course).2 = t at hends ⊢
  cases hends with
  | unanswered hreplies =>
    have hstages : stages table p reporter course = [begin table p reporter] := by
      simp only [stages, hreplies]
    rw [hstages]
    exact ⟨hbegin, fun _ => hbegin.recorded_eq fun w hw => (hplanned.idle w hw).1⟩
  | rejected replies index hreplies haccept =>
    have hstages : stages table p reporter course = [begin table p reporter] := by
      simp only [stages, hreplies, haccept]
    rw [hstages]
    exact ⟨hbegin, fun _ => hbegin.recorded_eq fun w hw => (hplanned.idle w hw).1⟩
  | unprepared replies t₁ t cause hreplies haccept hprepare =>
    have hstages : stages table p reporter course = [begin table p reporter, t₁, t] := by
      simp only [stages, hreplies, haccept, hprepare]
    obtain ⟨haccounts₁, hsegments, hle⟩ := accept_accounts hknown htotal haccept
    have hplanned' := (hplanned.accept haccept).prepare hprepare
    obtain ⟨haccounts', hreporter⟩ := haccounts₁.prepare hprepare
    have hlast := (hplanned'.count_first haccounts').balances
      (by rw [hreporter, (prepare_eq hprepare).1]; exact hsegments)
    rw [hstages]
    refine ⟨?_, fun _ => hlast.recorded_eq fun w hw => (hplanned'.idle w hw).1⟩
    exact (hlast.cons haccounts₁.total_eq (by rw [published, published, hreporter])).cons
      haccounts.total_eq hle
  | closed replies t₁ t₀ t outcome hreplies haccept hprepare hclose =>
    have hstages : stages table p reporter course =
        begin table p reporter :: t₁ :: (t₀.moments course.incidents ++ [t]) := by
      simp only [stages, hreplies, haccept, hprepare, hclose]
    obtain ⟨haccounts₁, -, hle⟩ := accept_accounts hknown htotal haccept
    have hplanned₀ := (hplanned.accept haccept).prepare hprepare
    obtain ⟨haccounts₀, hreporter⟩ := haccounts₁.prepare hprepare
    have hclosed := hplanned₀.closes (hplanned₀.count_stream haccounts₀ hchunks) hclose
    have hlast := hplanned₀.balances haccounts₀ hchunks hclosed
    rw [hstages]
    refine ⟨?_, ?_⟩
    · exact (hlast.cons haccounts₁.total_eq (by rw [published, published, hreporter])).cons
        haccounts.total_eq hle
    · refine fun hwritten => hclosed.recorded_eq ?_
      obtain ⟨o, hok⟩ | ⟨hreliable, hroom⟩ := hwritten
      · exact hclosed.emptied o hok
      · rw [(close_closes hclose).workers_eq]
        exact close_reliable hknown haccept hprepare hreliable hroom

/-- Two segments, of which the first lacks its last byte. -/
def begunPair : Table where
  segments := [⟨0, 2, 2, 2⟩, ⟨3, 5, 0, 0⟩]
  isFresh := false
  persists := true
  size? := some 6

/-- The first body brings more than was asked for, and the second breaks off. -/
def uneven : Course where
  replies? := some [.answered 206 (some 2), .answered 206 (some 3)]
  incidents := [(1, .chunk 0 [7]), (2, .chunk 1 [8]), (3, .chunk 0 [7, 7, 7]), (4, .ended 0),
    (5, .broken 1)]

theorem run_balances_uneven :
    Balances 6 2 (stages begunPair {} (.new (some 6) 0 {}) uneven)
        (run begunPair {} (.new (some 6) 0 {}) uneven).2 ∧
      (run begunPair {} (.new (some 6) 0 {}) uneven).2.table.sessionTotal =
        (run begunPair {} (.new (some 6) 0 {}) uneven).2.published ∧
      (stages begunPair {} (.new (some 6) 0 {}) uneven).map published =
        [2, 2, 2, 2, 3, 4, 4, 4, 4] := by
  have hknown : begunPair.Known 6 :=
    ⟨rfl, by decide, ⟨by decide, by decide +kernel, by decide⟩, nofun⟩
  have hchunks : NonemptyChunks uneven.incidents := by
    intro x hx i data hchunk
    simp only [uneven, List.mem_cons, List.not_mem_nil, or_false] at hx
    rcases hx with rfl | rfl | rfl | rfl | rfl <;> cases hchunk <;> exact List.cons_ne_nil _ _
  have hok : (run begunPair {} (.new (some 6) 0 {}) uneven).1 = .ok (.incomplete 1) := by
    decide +kernel
  have h := @run_balances 6 begunPair {} (.new (some 6) 0 {}) uneven hknown rfl hchunks
  exact ⟨h.1, h.2 (Or.inl ⟨_, hok⟩), by decide +kernel⟩

end Run

end Transfer

end SegmentedDownload
