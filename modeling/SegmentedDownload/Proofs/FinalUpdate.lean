import SegmentedDownload.Proofs.Closing
import SegmentedDownload.Proofs.Preparation

/-!
# SegmentedDownload.Proofs.FinalUpdate

What an observer hears last of a download that completes.

* `Reporter.play` is a reporter after some calls, with all that the observer heard.
  The throttle remembers the bytes of the last update that it passed on, and nothing
  else of it (`Remembers`).
* So the final update always tells the number of bytes, but not always the total.  If
  the observer has last heard of exactly that many bytes, the final update is taken for
  unchanged, even when the total was not known at that time (`getLast?_finish`).
* A run talks to its reporter through these calls only (`Tells`), and a total that is
  known at the beginning stays (`play_total`).  A run of known size therefore ends with
  the full update; one of unknown size may not (`final_update`, `chunked_lacks_total`).
-/

namespace SegmentedDownload

namespace Reporter

/-! ## Histories -/

/-- What a run tells its reporter while it goes on. -/
inductive Call
  | reset (initial : List Int)
  | update (index : Nat) (progress : Int) (length? : Option Int) (now : Nat)

/-- The reporter after a call, and what it passes on. -/
def tell (r : Reporter) : Call → Reporter × Option Snapshot
  | .reset initial => (r.reset initial, none)
  | .update index progress length? now => r.update index progress length? now

/-- The reporter after one more call, beside all that the observer heard so far. -/
def hear (x : Reporter × List Snapshot) (call : Call) : Reporter × List Snapshot :=
  ((x.1.tell call).1, x.2 ++ (x.1.tell call).2.toList)

/-- A reporter after some calls, and what the observer heard of them. -/
def play (r : Reporter) (calls : List Call) : Reporter × List Snapshot :=
  calls.foldl hear (r, [])

/-- What the observer heard of some calls and of the final update behind them. -/
def concluded (r : Reporter) (calls : List Call) (n : Int) (now : Nat) : List Snapshot :=
  (r.play calls).2 ++ ((r.play calls).1.finish n now).2.toList

theorem play_snoc (r : Reporter) (calls : List Call) (call : Call) :
    r.play (calls ++ [call]) = hear (r.play calls) call := by
  simp [play]

/-! ## What the throttle remembers -/

/-- The throttle knows how many bytes the observer has last heard of. -/
def Remembers (r : Reporter) (heard : List Snapshot) : Prop :=
  r.throttle.lastTransferred = (heard.getLast?.map Snapshot.transferred).getD (-1)

variable {r : Reporter} {heard : List Snapshot}

/-- An update that is sent is remembered as the last one. -/
theorem emit_remembers (h : Remembers r heard) (now : Nat) :
    Remembers (r.emit now).1 (heard ++ (r.emit now).2.toList) := by
  unfold emit
  split
  · simp [Remembers, Throttle.record]
  · simpa [Remembers] using h

/-- So it is whatever call of the reporter sends it. -/
theorem tell_remembers (h : Remembers r heard) (call : Call) :
    Remembers (r.tell call).1 (heard ++ (r.tell call).2.toList) := by
  cases call with
  | reset initial => simpa [tell, reset, Remembers] using h
  | update index progress length? now =>
    refine emit_remembers ?_ now
    exact h

/-- After any calls, a reporter remembers the last update that it sent. -/
theorem play_remembers (size? : Option Int) (interval : Nat) (before : Snapshot)
    (calls : List Call) :
    Remembers ((new size? interval before).play calls).1
      ((new size? interval before).play calls).2 := by
  induction calls using List.reverseRecOn with
  | nil => rfl
  | append_singleton calls call ih =>
    rw [play_snoc]
    exact tell_remembers ih call

/-- The final update reaches the observer, unless the last update told of as many bytes. -/
theorem getLast?_finish (h : Remembers r heard) {n : Int} (hn : 0 < n) (now : Nat) :
    (heard ++ (r.finish n now).2.toList).getLast? =
      if heard.getLast?.map Snapshot.transferred = some n then heard.getLast?
      else some { total := n, transferred := n } := by
  have hcomplete : ({ total := n, transferred := n } : Snapshot).isComplete = true := by
    simp [Snapshot.isComplete, hn]
  have hsame : n = r.throttle.lastTransferred ↔
      heard.getLast?.map Snapshot.transferred = some n := by
    rw [h]
    cases heard.getLast?.map Snapshot.transferred with
    | none =>
      rw [Option.getD_none]
      exact ⟨fun heq => by omega, fun hnone => by contradiction⟩
    | some m => exact ⟨fun heq => congrArg some heq.symm, fun heq => (Option.some.inj heq).symm⟩
  unfold finish emit Throttle.admits
  rw [hcomplete, Bool.or_true, Bool.and_true]
  by_cases hheard : heard.getLast?.map Snapshot.transferred = some n
  · have heq : (n != r.throttle.lastTransferred) = false :=
      bne_eq_false_iff_eq.mpr (hsame.mpr hheard)
    simp [heq, hheard]
  · have hne : (n != r.throttle.lastTransferred) = true :=
      bne_iff_ne.mpr fun heq => hheard (hsame.mp heq)
    simp [hne, hheard]

/-- The final update tells the number of bytes.  It tells that there are no more unless the
update before was of as many bytes and another total. -/
theorem getLast?_concluded (size? : Option Int) (interval : Nat) (before : Snapshot)
    (calls : List Call) {n : Int} (hn : 0 < n) (now : Nat) :
    (∃ s, ((new size? interval before).concluded calls n now).getLast? = some s ∧
        s.transferred = n) ∧
      (((new size? interval before).concluded calls n now).getLast? =
          some { total := n, transferred := n } ↔
        ∀ s, ((new size? interval before).play calls).2.getLast? = some s →
          s.transferred = n → s.total = n) := by
  have hlast := getLast?_finish (play_remembers size? interval before calls) hn now
  unfold concluded
  rw [hlast]
  cases ((new size? interval before).play calls).2.getLast? with
  | none => exact ⟨⟨_, rfl, rfl⟩, fun _ s hs => (by contradiction), fun _ => rfl⟩
  | some s =>
    obtain ⟨total, transferred⟩ := s
    by_cases heq : transferred = n
    · subst heq
      simp
    · simp [heq]

/-! ## Totals that are known -/

theorem emit_total {size : Int} (hr : r.snapshot.total = size)
    (hheard : ∀ s ∈ heard, s.total = size) (now : Nat) :
    (r.emit now).1.snapshot.total = size ∧
      ∀ s ∈ heard ++ (r.emit now).2.toList, s.total = size := by
  unfold emit
  split
  · refine ⟨hr, fun s hs => ?_⟩
    rcases List.mem_append.mp hs with hs | hs
    · exact hheard s hs
    · obtain rfl : s = r.snapshot := by simpa using hs
      exact hr
  · exact ⟨hr, by simpa using hheard⟩

/-- A total that is known at the beginning is in every update. -/
theorem play_total {size : Int} (hsize : size ≠ 0) (interval : Nat) (before : Snapshot)
    (calls : List Call) :
    ((new (some size) interval before).play calls).1.snapshot.total = size ∧
      ∀ s ∈ ((new (some size) interval before).play calls).2, s.total = size := by
  induction calls using List.reverseRecOn with
  | nil => exact ⟨rfl, fun s hs => by cases hs⟩
  | append_singleton calls call ih =>
    rw [play_snoc]
    generalize (new (some size) interval before).play calls = x at ih ⊢
    obtain ⟨r, heard⟩ := x
    obtain ⟨hr, hheard⟩ := ih
    cases call with
    | reset initial => exact ⟨hr, by simpa [hear, tell] using hheard⟩
    | update index progress length? now =>
      refine emit_total ?_ hheard now
      have hknown : r.snapshot.total ≠ 0 := by rwa [hr]
      exact (if_neg fun hboth => hknown hboth.2).trans hr

end Reporter

namespace Transfer

open Reporter

/-! ## Runs -/

/-- A run has told its reporter nothing but what `Reporter.Call` lists, and the size that
it knows of is still that of its table. -/
structure Tells (size? : Option Int) (reporter : Reporter) (t : Transfer) : Prop where
  told : ∃ calls, reporter.play calls = (t.reporter, t.callbacks)
  size_eq : t.table.size? = size?

variable {size? : Option Int} {reporter : Reporter} {t t' : Transfer}

/-- Only the reporter, the updates and the size decide what a transfer tells. -/
theorem Tells.congr (h : Tells size? reporter t) (hreporter : t'.reporter = t.reporter)
    (hcallbacks : t'.callbacks = t.callbacks) (hsize : t'.table.size? = t.table.size?) :
    Tells size? reporter t' := by
  obtain ⟨calls, hcalls⟩ := h.told
  exact ⟨⟨calls, by rw [hcalls, hreporter, hcallbacks]⟩, hsize.trans h.size_eq⟩

/-- One more call. -/
theorem Tells.tell (h : Tells size? reporter t) (call : Reporter.Call)
    (hreporter : t'.reporter = (t.reporter.tell call).1)
    (hcallbacks : t'.callbacks = t.callbacks ++ (t.reporter.tell call).2.toList)
    (hsize : t'.table.size? = t.table.size?) : Tells size? reporter t' := by
  obtain ⟨calls, hcalls⟩ := h.told
  refine ⟨⟨calls ++ [call], ?_⟩, hsize.trans h.size_eq⟩
  rw [play_snoc, hcalls, hreporter, hcallbacks]
  rfl

/-- A transfer begins with a reset of its reporter. -/
theorem tells_begin (table : Table) (p : PartialFile) (reporter : Reporter) :
    Tells table.size? reporter (begin table p reporter) :=
  ⟨⟨[.reset (table.begin.segments.map Segment.session)], rfl⟩, rfl⟩

/-- The setup tells no more than that progress begins anew. -/
theorem Tells.accept (h : Tells size? reporter t) {replies : List Reply}
    (haccept : t.accept replies = .ok t') : Tells size? reporter t' := by
  cases accept_accepts haccept with
  | whole _ _ _ _ _ _ _ => exact h.tell (.reset [0]) rfl (List.append_nil _).symm rfl
  | each _ _ => exact h.congr rfl rfl rfl

/-- Preparing the file tells nothing. -/
theorem Tells.prepare (h : Tells size? reporter t) {fault? : Option IoError}
    (hprepare : t.prepare = (t', fault?)) : Tells size? reporter t' := by
  rw [prepare_file hprepare]
  exact h.congr rfl rfl rfl

/-- An incident tells the progress of one worker, or nothing. -/
theorem Tells.step (h : Tells size? reporter t) {now : Nat} {incident : Incident}
    (hstep : Step t now incident t') : Tells size? reporter t' := by
  cases hstep with
  | halted => exact h
  | stopped => exact h.congr rfl rfl rfl
  | unheard => exact h
  | refused => exact h.congr rfl rfl rfl
  | received i data w w' =>
    exact h.tell (.update w'.slot.index w'.progress w'.segmentLength? now) rfl rfl rfl
  | ended => exact h.congr rfl rfl rfl
  | broken => exact h.congr rfl rfl rfl

/-- All that is told while the bodies arrive are calls of the reporter. -/
theorem Tells.stream (h : Tells size? reporter t) (incidents : List (Nat × Incident)) :
    Tells size? reporter (t.stream incidents) := by
  induction incidents using List.reverseRecOn with
  | nil => exact h
  | append_singleton done x ih =>
    rw [stream_snoc]
    exact ih.step (step_deliver _ _ _)

/-- The last flushes are not told. -/
theorem Tells.flushAll (h : Tells size? reporter t) : Tells size? reporter t.flushAll :=
  flushAll_induction (motive := fun _ u => Tells size? reporter u) t h
    fun _ _ _ _ hu => hu.congr rfl rfl rfl

/-- A run that completes tells its reporter the size of the file at last. -/
theorem Ends.told {table : Table} {p : PartialFile} {course : Course}
    {outcome : Except DownloadError Outcome} (h : Ends table p reporter course outcome t)
    {length : Nat} (hcompleted : outcome = .ok (.completed length)) :
    Word.toUnsigned t.payloadLength = length ∧
      (∀ size, table.size? = some size → t.payloadLength = size) ∧
      ∃ calls, t.callbacks = (reporter.play calls).2 ++
        ((reporter.play calls).1.finish t.payloadLength course.closing).2.toList := by
  cases h with
  | unanswered => cases hcompleted
  | rejected => cases hcompleted
  | unprepared => cases hcompleted
  | closed replies t₁ t₀ _ _ _ haccept hprepare hclose =>
    have htells := ((((tells_begin table p reporter).accept haccept).prepare hprepare).stream
      course.incidents).flushAll
    obtain ⟨calls, hcalls⟩ := htells.told
    cases close_closes hclose with
    | failed => cases hcompleted
    | interrupted => cases hcompleted
    | incomplete => cases hcompleted
    | completed hrunning hcomplete =>
      have hlength : ∀ size, table.size? = some size →
          (t₀.stream course.incidents).flushAll.payloadLength = size := by
        intro size hsize
        rw [payloadLength, htells.size_eq, hsize, Option.getD_some]
      refine ⟨Outcome.completed.inj (Except.ok.inj hcompleted), hlength, calls, ?_⟩
      rw [hcalls]
      rfl

/-- **The final update.** A reporter that finishes with `n` bytes has last told its observer
of exactly `n` bytes, whatever happened before; and it has told that `n` is the total, too,
unless the update before was of `n` bytes with another total.

A run that completes ends in this way.  If it knew the size of the file when it began, its
observer has last heard of the whole file. -/
theorem final_update (size? : Option Int) (interval : Nat) (before : Snapshot) :
    (∀ (calls : List Reporter.Call) (n : Int) (now : Nat), 0 < n →
      let heard := ((Reporter.new size? interval before).play calls).2
      let heard' := (Reporter.new size? interval before).concluded calls n now
      (∃ s, heard'.getLast? = some s ∧ s.transferred = n) ∧
        (heard'.getLast? = some { total := n, transferred := n } ↔
          ∀ s, heard.getLast? = some s → s.transferred = n → s.total = n)) ∧
    ∀ (table : Table) (p : PartialFile) (course : Course) (length : Nat), table.size? = size? →
      let result := run table p (Reporter.new size? interval before) course
      result.1 = .ok (.completed length) → 0 < result.2.payloadLength →
      result.2.payloadLength ≤ Word.maxInt →
      length = result.2.payloadLength ∧
        (∃ calls, result.2.callbacks =
          (Reporter.new size? interval before).concluded calls length course.closing) ∧
        (size?.isSome →
          result.2.callbacks.getLast? = some { total := length, transferred := length }) := by
  refine ⟨fun calls n now hn => getLast?_concluded size? interval before calls hn now, ?_⟩
  intro table p course length hsize result hcompleted hpos hmax
  have hends := run_ends table p (Reporter.new size? interval before) course
  obtain ⟨hlength, hknown, calls, hcallbacks⟩ := hends.told hcompleted
  rw [Word.toUnsigned_of_nonneg (Int.le_of_lt hpos) hmax] at hlength
  have hpayload : (length : Int) = result.2.payloadLength := by omega
  have hconcluded : result.2.callbacks =
      (Reporter.new size? interval before).concluded calls length course.closing := by
    rw [hpayload]
    exact hcallbacks
  refine ⟨hpayload, ⟨calls, hconcluded⟩, fun hsome => ?_⟩
  obtain ⟨size, rfl⟩ := Option.isSome_iff_exists.mp hsome
  have hsame : (length : Int) = size := hpayload.trans (hknown size hsize)
  have hn : 0 < (length : Int) := by omega
  rw [hconcluded]
  refine (getLast?_concluded (some size) interval before calls hn course.closing).2.mpr ?_
  intro s hs _
  have htotal := (play_total (by omega) interval before calls).2 s (List.mem_of_getLast? hs)
  rw [htotal, hsame]

/-- What happens in a run whose body has no length. -/
def chunkedCourse : Course :=
  { replies? := some [.answered 200 none]
    incidents := [(0, .chunk 0 [1, 2]), (1, .chunk 0 [3]), (2, .ended 0)]
    closing := 3 }

/-- A run of unknown size that reports without a pause. -/
def chunked : Except DownloadError Outcome × Transfer :=
  run (Table.fresh none 4 false) {} (Reporter.new none 0 {}) chunkedCourse

theorem chunked_concludes :
    (∃ s, ((Reporter.new none 0 {}).concluded [.reset [0], .update 0 70 none 1] 70 2).getLast? =
        some s ∧ s.transferred = 70) ∧
      chunked.1 = .ok (.completed 3) ∧
      ∃ calls, chunked.2.callbacks = (Reporter.new none 0 {}).concluded calls 3 3 := by
  obtain ⟨hreporter, hrun⟩ := final_update none 0 {}
  have hcompleted : chunked.1 = .ok (.completed 3) := by decide +kernel
  obtain ⟨-, hcalls, -⟩ := hrun (Table.fresh none 4 false) {} chunkedCourse 3 (by decide)
    hcompleted (by decide +kernel) (by decide +kernel)
  exact ⟨(hreporter [.reset [0], .update 0 70 none 1] 70 2 (by decide)).1, hcompleted, hcalls⟩

/-- The observer of a download without a known size may never hear that it is complete: the
last chunk told of all bytes already, when the total was not known. -/
theorem chunked_lacks_total :
    chunked.1 = .ok (.completed 3) ∧
      chunked.2.callbacks =
        [{ total := 0, transferred := 2 }, { total := 0, transferred := 3 }] ∧
      (Reporter.new none 0 {}).concluded [.reset [0], .update 0 25 none 1, .update 0 70 none 2]
          70 3 =
        [{ total := 0, transferred := 25 }, { total := 0, transferred := 70 }] := by
  refine ⟨?_, ?_, ?_⟩ <;> decide +kernel

end Transfer

end SegmentedDownload
