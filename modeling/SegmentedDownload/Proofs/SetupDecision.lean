import SegmentedDownload.Proofs.Closing
import SegmentedDownload.Proofs.Preparation

/-!
# SegmentedDownload.Proofs.SetupDecision

What the replies decide, whatever they are.

* A reply is one of three things to its worker (`Fate`): the whole file in place of a range,
  what the worker asked for, or nothing of use.
* The first worker whose range was ignored rejects the run (`acceptAll_error`).  Workers stand
  in the order of their segments, so it is the one with the least segment
  (`isLeast_ignored`).  If there is none, each worker goes its own way (`acceptAll_ok`).
* A worker that does not stream stays as it is until the run is over (`carryOn_idle`).
* Errors behind the replies are errors of the file (`carryOn_io`).  So a run that is rejected
  has not touched the file yet, nor the table.

`Decides` puts this together for every table, whether it was planned or adopted.
-/

namespace SegmentedDownload.Transfer

variable {table : Table} {p : PartialFile} {reporter : Reporter} {course : Course}
  {t t' : Transfer} {w : Worker} {workers workers' : List Worker} {replies : List Reply}
  {k : Nat} {e : DownloadError}

/-! ## One reply -/

/-- A worker that asked for a range got the whole file. -/
def Ignored (w : Worker) (reply : Reply) : Prop :=
  w.range? ≠ none ∧ ∃ length?, reply = .answered 200 length?

/-- A worker got what it asked for: a part of the file, or all of it if it asked for no range. -/
def Answered (w : Worker) (reply : Reply) (length? : Option Nat) : Prop :=
  reply = .answered 206 length? ∨ w.range? = none ∧ reply = .answered 200 length?

/-- What a reply makes of its worker. -/
inductive Fate (w : Worker) (reply : Reply) : Except DownloadError Worker → Prop
  | ignored (hignored : Ignored w reply) : Fate w reply (.error (.rangeUnsupported w.slot.index))
  | answered (length? : Option Nat) (hignored : ¬ Ignored w reply)
      (hanswered : Answered w reply length?) : Fate w reply (.ok (w.begin length?))
  | failed (hignored : ¬ Ignored w reply) (hanswered : ∀ length?, ¬ Answered w reply length?) :
    Fate w reply (.ok w.fail)

/-- Whatever is made of a reply is one of the cases of `Fate`. -/
theorem acceptOne_fate (w : Worker) (reply : Reply) : Fate w reply (acceptOne w reply) := by
  cases reply with
  | lost => exact .failed (by simp [Ignored]) (by simp [Answered])
  | answered status length? =>
    by_cases hpart : status = 206
    · subst hpart
      exact .answered length? (by simp [Ignored]) (Or.inl rfl)
    · by_cases hall : status = 200
      · subst hall
        cases hrange : w.range? with
        | none =>
          have haccept : acceptOne w (.answered 200 length?) = .ok (w.begin length?) := by
            simp [acceptOne, Worker.classify, hrange]
          rw [haccept]
          exact .answered length? (fun h => h.1 hrange) (Or.inr ⟨hrange, rfl⟩)
        | some range =>
          have hreject : acceptOne w (.answered 200 length?) =
              .error (.rangeUnsupported w.slot.index) := by
            simp [acceptOne, Worker.classify, hrange]
          rw [hreject]
          exact .ignored ⟨by simp [hrange], length?, rfl⟩
      · have hfail : acceptOne w (.answered status length?) = .ok w.fail := by
          simp [acceptOne, Worker.classify, hpart, hall]
        rw [hfail]
        exact .failed (by simp [Ignored, hall]) (by simp [Answered, hpart, hall])

/-! ## All replies -/

/-- The reply to the worker at a position.  One that is not there was lost. -/
def replyTo (replies : List Reply) (k : Nat) : Reply := replies[k]?.getD .lost

theorem headD_eq (replies : List Reply) : replies.headD .lost = replyTo replies 0 := by
  cases replies <;> rfl

/-- The other workers are answered by the other replies. -/
theorem replyTo_tail (replies : List Reply) (k : Nat) :
    replyTo replies.tail k = replyTo replies (k + 1) := by
  cases replies <;> rfl

/-- The first worker whose range was ignored is the one that the error tells of. -/
theorem acceptAll_error (h : acceptAll workers replies = .error e) :
    ∃ k w, workers[k]? = some w ∧ Ignored w (replyTo replies k) ∧
      e = .rangeUnsupported w.slot.index ∧
      ∀ j v, j < k → workers[j]? = some v → ¬ Ignored v (replyTo replies j) := by
  induction workers generalizing replies with
  | nil => contradiction
  | cons w workers ih =>
    have hfate := acceptOne_fate w (replyTo replies 0)
    rw [acceptAll, headD_eq] at h
    rcases bind_eq_error.mp h with hone | ⟨w', hone, h⟩
    · rw [hone] at hfate
      cases hfate with
      | ignored hignored => exact ⟨0, w, rfl, hignored, rfl, fun j v hj => by omega⟩
    · rcases bind_eq_error.mp h with hall | ⟨_, -, hok⟩
      · obtain ⟨k, v, hv, hignored, he, hbefore⟩ := ih hall
        rw [replyTo_tail] at hignored
        refine ⟨k + 1, v, hv, hignored, he, fun j u hj hu => ?_⟩
        cases j with
        | zero =>
          obtain rfl := Option.some.inj hu
          rw [hone] at hfate
          cases hfate <;> assumption
        | succ j =>
          rw [← replyTo_tail]
          exact hbefore j u (by omega) hu
      · contradiction

/-- Where no range was ignored, each worker goes its own way. -/
theorem acceptAll_ok (h : acceptAll workers replies = .ok workers') :
    workers'.length = workers.length ∧ ∀ k w, workers[k]? = some w →
      ∃ w', workers'[k]? = some w' ∧ Fate w (replyTo replies k) (.ok w') := by
  obtain ⟨hlength, heach⟩ := acceptAll_eq_ok h
  refine ⟨hlength, fun k w hw => ?_⟩
  have hk : k < workers'.length := hlength ▸ (List.getElem?_eq_some_iff.mp hw).1
  obtain ⟨v, hv, hreply⟩ := heach k workers'[k] (List.getElem?_eq_getElem hk)
  obtain rfl := Option.some.inj (hw.symm.trans hv)
  have hfate := acceptOne_fate w (replyTo replies k)
  exact ⟨workers'[k], List.getElem?_eq_getElem hk, hreply ▸ hfate⟩

/-- What a run asks for on behalf of a table: one worker for each incomplete segment. -/
def asked (table : Table) : List Worker := (Plan.resume table.begin.segments).map request

/-- The segments whose range was ignored. -/
def ignoredSegments (table : Table) (replies : List Reply) : Set Nat :=
  {i | ∃ k w, (asked table)[k]? = some w ∧ w.slot.index = i ∧ Ignored w (replyTo replies k)}

/-- The first worker whose range was ignored has the least segment. -/
theorem isLeast_ignored (hw : (asked table)[k]? = some w) (hignored : Ignored w (replyTo replies k))
    (hbefore : ∀ j v, j < k → (asked table)[j]? = some v → ¬ Ignored v (replyTo replies j)) :
    IsLeast (ignoredSegments table replies) w.slot.index := by
  refine ⟨⟨k, w, hw, rfl, hignored⟩, ?_⟩
  rintro _ ⟨j, v, hv, rfl, hv'⟩
  have horder : (asked table).Pairwise fun a b => a.slot.index < b.slot.index :=
    List.pairwise_map.mpr (@Plan.pairwise_resume table.begin.segments)
  rcases Nat.lt_trichotomy j k with hlt | rfl | hgt
  · exact absurd hv' (hbefore j v hlt hv)
  · obtain rfl := Option.some.inj (hw.symm.trans hv)
    exact Nat.le_refl _
  · obtain ⟨hj, rfl⟩ := List.getElem?_eq_some_iff.mp hv
    obtain ⟨hk, rfl⟩ := List.getElem?_eq_some_iff.mp hw
    exact Nat.le_of_lt (List.pairwise_iff_getElem.mp horder k j hk hj hgt)

/-! ## The whole file -/

/-- The first segment of a fresh table is the first that was asked for, and got the whole file in
place of its range. -/
def GotWhole (table : Table) (replies : List Reply) (length? : Option Nat) : Prop :=
  table.isFresh = true ∧ ∃ w, (asked table)[0]? = some w ∧ w.slot.index = 0 ∧ w.range? ≠ none ∧
    replyTo replies 0 = .answered 200 length?

/-- The plan collapses for exactly these replies. -/
theorem wholeFile?_eq_some {length? : Option Nat} :
    (begin table p reporter).wholeFile? replies = some length? ↔
      GotWhole table replies length? := by
  have hfresh : (begin table p reporter).table.isFresh = table.isFresh := rfl
  have hworkers : (begin table p reporter).workers = asked table := rfl
  unfold wholeFile? GotWhole
  rw [hfresh, hworkers]
  cases table.isFresh with
  | false => simp
  | true =>
    cases asked table with
    | nil => simp
    | cons w workers =>
      cases replies with
      | nil => simp [replyTo]
      | cons reply replies =>
        cases reply with
        | lost => simp [replyTo]
        | answered status length?' =>
          by_cases hpart : status = 206
          · simp [replyTo, Worker.classify, hpart]
          · by_cases hall : status = 200
            · cases hrange : w.range? <;> simp [replyTo, Worker.classify, hall, hrange]
            · simp [replyTo, Worker.classify, hpart, hall]

/-! ## Behind the replies -/

/-- The run from the preparation of the file on. -/
def carryOn (t : Transfer) (course : Course) : Except DownloadError Outcome × Transfer :=
  match t.prepare with
  | (t, some fault) => (.error (.io fault), t)
  | (t, none) => (t.stream course.incidents).close course.closing

/-- A run whose setup is rejected ends at once, with nothing done. -/
theorem run_of_rejected (hreplies : course.replies? = some replies)
    (haccept : (begin table p reporter).accept replies = .error e) :
    run table p reporter course = (.error e, begin table p reporter) := by
  simp [run, hreplies, proceed, haccept]

/-- A run whose setup is accepted carries on. -/
theorem run_of_accepted (hreplies : course.replies? = some replies)
    (haccept : (begin table p reporter).accept replies = .ok t) :
    run table p reporter course = t.carryOn course := by
  simp only [run, hreplies, proceed, haccept]
  rfl

/-- The error of the run, if any, is one of its file. -/
def OfFile (t : Transfer) : Prop := ∀ e, t.fatal? = some e → ∃ cause, e = .io cause

/-- No incident ends a run for another reason than the file. -/
theorem OfFile.step (h : t.OfFile) {now : Nat} {incident : Incident}
    (hstep : Step t now incident t') : t'.OfFile := by
  have hadvance : ∀ i w' p' fault?, (t.advance i (w', p', fault?)).OfFile := by
    intro i w' p' fault? e he
    obtain ⟨cause, -, rfl⟩ := Option.map_eq_some_iff.mp he
    exact ⟨cause, rfl⟩
  cases hstep with
  | halted _ _ => exact h
  | stopped _ => exact h
  | unheard _ _ _ _ _ => exact h
  | refused _ _ _ _ _ _ _ _ _ => exact hadvance _ _ _ _
  | received i data w w' p' _ _ _ => exact hadvance i w' p' none
  | ended _ _ _ _ _ _ _ _ => exact hadvance _ _ _ _
  | broken _ _ _ _ => exact h

theorem OfFile.stream (h : t.OfFile) (incidents : List (Nat × Incident)) :
    (t.stream incidents).OfFile := by
  induction incidents using List.reverseRecOn with
  | nil => exact h
  | append_singleton done x ih =>
    rw [stream_snoc]
    exact ih.step (step_deliver _ _ _)

theorem OfFile.flushAll (h : t.OfFile) : t.flushAll.OfFile := by
  intro e he
  rcases (flushAll_flushed t).fatal with heq | ⟨-, cause, hcause, -⟩
  · exact h e (heq ▸ he)
  · exact ⟨cause, Option.some.inj (he.symm.trans hcause)⟩

/-- Errors behind the replies are errors of the file. -/
theorem carryOn_io (h : t.fatal? = none) (he : (t.carryOn course).1 = .error e) :
    ∃ cause, e = .io cause := by
  unfold carryOn at he
  split at he
  · next cause _ => exact ⟨cause, (Except.error.inj he).symm⟩
  · next t₀ hprepare =>
    obtain ⟨-, -, hfatal, -⟩ := prepare_eq hprepare
    have hready : t₀.OfFile := fun e he => by
      rw [hfatal, h] at he
      contradiction
    cases hclose : (t₀.stream course.incidents).close course.closing with
    | mk outcome u =>
    obtain rfl : outcome = .error e := by rwa [hclose] at he
    cases close_closes hclose with
    | failed _ hfatal =>
      rcases checkpoint_fatal_cases hfatal with hbefore | ⟨cause, rfl, -⟩
      · exact (hready.stream course.incidents).flushAll e hbefore
      · exact ⟨cause, rfl⟩

/-- A step is about a worker that streams, or about none. -/
theorem Step.idle {now : Nat} {incident : Incident} (hstep : Step t now incident t')
    (hw : t.workers[k]? = some w) (hidle : w.state ≠ .streaming) : t'.workers[k]? = some w := by
  have hother : ∀ {i v} (v' : Worker), t.streaming? i = some v →
      (t.workers.set i v')[k]? = some w := by
    intro i v v' hstream
    obtain ⟨hv, hstate⟩ := streaming?_eq_some.mp hstream
    have hne : i ≠ k := by
      rintro rfl
      exact hidle (Option.some.inj (hw.symm.trans hv) ▸ hstate)
    rw [List.getElem?_set_ne hne, hw]
  cases hstep with
  | halted _ _ => exact hw
  | stopped _ => exact hw
  | unheard _ _ _ _ _ => exact hw
  | refused _ _ _ w' _ _ _ hstream _ => exact hother w' hstream
  | received _ _ _ w' _ _ hstream _ => exact hother w' hstream
  | ended _ _ w' _ _ _ hstream _ => exact hother w' hstream
  | broken _ v _ hstream => exact hother v.fail hstream

/-- A worker that is not streaming is left alone. -/
theorem stream_idle (hw : t.workers[k]? = some w) (hidle : w.state ≠ .streaming)
    (incidents : List (Nat × Incident)) : (t.stream incidents).workers[k]? = some w := by
  induction incidents using List.reverseRecOn with
  | nil => exact hw
  | append_singleton done x ih =>
    rw [stream_snoc]
    exact (step_deliver _ _ _).idle ih hidle

/-- A worker that does not stream stays as it is. -/
theorem carryOn_idle (hw : t.workers[k]? = some w) (hidle : w.state ≠ .streaming)
    (hbuffer : w.buffer = []) : (t.carryOn course).2.workers[k]? = some w := by
  unfold carryOn
  split
  · next hprepare => rw [(prepare_eq hprepare).2.1, hw]
  · next t₀ hprepare =>
    have hstreamed := stream_idle ((prepare_eq hprepare).2.1 ▸ hw) hidle course.incidents
    have hflushed := flushAll_flushed (t₀.stream course.incidents)
    have hafter : (t₀.stream course.incidents).flushAll.workers[k]? = some w := by
      have hk := (List.getElem?_eq_some_iff.mp hstreamed).1
      rw [← hflushed.length_eq] at hk
      obtain ⟨v, hv, hkept⟩ := hflushed.kept k _ (List.getElem?_eq_getElem hk)
      obtain rfl := Option.some.inj (hstreamed.symm.trans hv)
      rw [Worker.flushed_of_nil hbuffer, or_self] at hkept
      rw [List.getElem?_eq_getElem hk, hkept]
    cases hclose : (t₀.stream course.incidents).close course.closing with
    | mk outcome u =>
    cases close_closes hclose with
    | completed _ _ => exact hafter
    | failed _ _ => exact (checkpoint_workers _).symm ▸ hafter
    | interrupted _ _ => exact (checkpoint_workers _).symm ▸ hafter
    | incomplete _ _ _ => exact (checkpoint_workers _).symm ▸ hafter

/-! ## The decision -/

/-- The last byte of a table that has one segment for the whole file. -/
def wholeLast (table : Table) : Int := (table.size?.map (· - 1)).getD Segment.unboundedLast

/-- The table as a run begins with it, with one segment for the whole file. -/
def wholeTable (table : Table) : Table :=
  { table.begin with segments := [{ start := 0, last := wholeLast table }] }

theorem collapse_begin (table : Table) : table.begin.collapse = wholeTable table := by
  cases hsize : table.size? <;>
    simp [Table.collapse, Table.whole, Table.begin, wholeTable, wholeLast, hsize, Segment.unbounded]

/-- What the replies decide, and what is left when they put an end to the run. -/
structure Decides (table : Table) (p : PartialFile) (reporter : Reporter) (course : Course) :
    Prop where
  /-- The whole file for the first segment of a fresh table: one worker streams all of it. -/
  collapses : ∀ replies length?, course.replies? = some replies → GotWhole table replies length? →
    ∃ t : Transfer, run table p reporter course = t.carryOn course ∧ t.file = p ∧
      t.table = wholeTable table ∧ ∃ w : Worker, t.workers = [w] ∧ w.state = .streaming ∧
        w.slot = { index := 0, start := 0, resumeStart := 0, last := wholeLast table }
  /-- Any other range that was ignored rejects the run, and the least segment is told. -/
  rejects : ∀ replies, course.replies? = some replies →
    (∀ length?, ¬ GotWhole table replies length?) → (ignoredSegments table replies).Nonempty →
    ∃ i, IsLeast (ignoredSegments table replies) i ∧
      (run table p reporter course).1 = .error (.rangeUnsupported i)
  /-- If there is none, those that got what they asked for stream, and the others have failed for
  good. -/
  streams : ∀ replies, course.replies? = some replies →
    (∀ length?, ¬ GotWhole table replies length?) → ignoredSegments table replies = ∅ →
    ∃ t : Transfer, run table p reporter course = t.carryOn course ∧ t.file = p ∧
      t.table = table.begin ∧ t.workers.length = (asked table).length ∧
      ∀ k w, (asked table)[k]? = some w →
        (∃ length?, Answered w (replyTo replies k) length? ∧
          t.workers[k]? = some (w.begin length?)) ∨
        (∀ length?, ¬ Answered w (replyTo replies k) length?) ∧ t.workers[k]? = some w.fail ∧
          (run table p reporter course).2.workers[k]? = some w.fail
  /-- A stop before the replies are there interrupts the run. -/
  interrupts : course.replies? = none → (run table p reporter course).1 = .ok .interrupted
  /-- A run that is rejected, or interrupted before the replies, has done nothing yet. -/
  undone : (∃ i, (run table p reporter course).1 = .error (.rangeUnsupported i)) ∨
      course.replies? = none →
    (run table p reporter course).2.file = p ∧ (run table p reporter course).2.table = table.begin

/-- A body of the whole file makes the plan collapse. -/
theorem accept_of_gotWhole {length? : Option Nat} (h : GotWhole table replies length?) :
    (begin table p reporter).accept replies =
      .ok ((begin table p reporter).collapse length?) := by
  rw [accept, wholeFile?_eq_some.mpr h]

/-- Otherwise every worker is decided on by its own reply. -/
theorem accept_of_not_gotWhole (p : PartialFile) (reporter : Reporter)
    (h : ∀ length?, ¬ GotWhole table replies length?) :
    (begin table p reporter).accept replies =
      (acceptAll (asked table) replies).map fun workers =>
        { begin table p reporter with workers } := by
  have hnone : (begin table p reporter).wholeFile? replies = none :=
    Option.eq_none_iff_forall_ne_some.mpr fun length? hsome =>
      h length? (wholeFile?_eq_some.mp hsome)
  rw [accept, hnone]
  rfl

/-- No error has ended a run that was just set up. -/
theorem fatal_of_accept (h : (begin table p reporter).accept replies = .ok t) :
    t.fatal? = none := by
  cases accept_accepts h <;> rfl

/-- The replies decide on a run as they should, and where they put an end to it, the file and the
table are as they were. -/
theorem run_decides (table : Table) (p : PartialFile) (reporter : Reporter) (course : Course) :
    Decides table p reporter course where
  collapses replies length? hreplies hwhole := by
    refine ⟨_, run_of_accepted hreplies (accept_of_gotWhole hwhole), rfl, collapse_begin table,
      _, rfl, rfl, ?_⟩
    have hlast : (begin table p reporter).table.whole.last = wholeLast table := by
      have hsegments := congrArg Table.segments (collapse_begin table)
      exact congrArg Segment.last (List.cons.inj hsegments).1
    exact congrArg (fun last => ({ index := 0, start := 0, resumeStart := 0, last } : Slot)) hlast
  rejects replies hreplies hpart hsome := by
    have haccept := accept_of_not_gotWhole p reporter hpart
    cases hall : acceptAll (asked table) replies with
    | error e =>
      rw [hall] at haccept
      obtain ⟨k, w, hw, hignored, rfl, hbefore⟩ := acceptAll_error hall
      exact ⟨w.slot.index, isLeast_ignored hw hignored hbefore,
        congrArg Prod.fst (run_of_rejected hreplies haccept)⟩
    | ok workers' =>
      obtain ⟨_, k, w, hw, -, hignored⟩ := hsome
      obtain ⟨w', -, hfate⟩ := (acceptAll_ok hall).2 k w hw
      cases hfate <;> contradiction
  streams replies hreplies hpart hnone := by
    have haccept := accept_of_not_gotWhole p reporter hpart
    cases hall : acceptAll (asked table) replies with
    | error e =>
      obtain ⟨k, w, hw, hignored, -, -⟩ := acceptAll_error hall
      have hmem : w.slot.index ∈ ignoredSegments table replies := ⟨k, w, hw, rfl, hignored⟩
      rw [hnone] at hmem
      contradiction
    | ok workers' =>
      rw [hall] at haccept
      have hrun := run_of_accepted hreplies haccept
      obtain ⟨hlength, heach⟩ := acceptAll_ok hall
      refine ⟨_, hrun, rfl, rfl, hlength, fun k w hw => ?_⟩
      obtain ⟨w', hw', hfate⟩ := heach k w hw
      cases hfate with
      | answered length? _ hanswered => exact Or.inl ⟨length?, hanswered, hw'⟩
      | failed _ hunanswered =>
        have hbuffer : w.fail.buffer = [] := by
          obtain ⟨slot, -, rfl⟩ := List.mem_map.mp (List.mem_of_getElem? hw)
          rfl
        refine Or.inr ⟨hunanswered, hw', ?_⟩
        rw [hrun]
        exact carryOn_idle hw' nofun hbuffer
  interrupts hreplies := by simp [run, hreplies]
  undone h := by
    rcases h with ⟨i, hrejected⟩ | hreplies
    · cases hreplies : course.replies? with
      | none => simp [run, hreplies] at hrejected
      | some replies =>
        cases haccept : (begin table p reporter).accept replies with
        | error e =>
          rw [run_of_rejected hreplies haccept]
          exact ⟨rfl, rfl⟩
        | ok t =>
          rw [run_of_accepted hreplies haccept] at hrejected
          obtain ⟨cause, hcause⟩ := carryOn_io (fatal_of_accept haccept) hrejected
          contradiction
    · simp only [run, hreplies]
      exact ⟨rfl, rfl⟩

/-- A range that is ignored in the second place rejects a run that is resumed. -/
example :
    let course : Course := { replies? := some [.answered 206 none, .answered 200 none] }
    (run (.resumed [⟨0, 1, 1, 0⟩, ⟨2, 3, 0, 0⟩] 4) {} (Reporter.new (some 4) 0 {}) course).1 =
      .error (.rangeUnsupported 1) := by
  decide +kernel

end SegmentedDownload.Transfer
