import SegmentedDownload.Proofs.Completion
import SegmentedDownload.Proofs.Resume

/-!
# SegmentedDownload.Proofs.Arrival

Runs in which nothing goes wrong: the file takes every write, and every worker gets
the part of the body that it asked for.

* On a reliable file no operation of a worker fails (`flush_reliable` up to
  `finish_reliable`), as long as its bytes lie within the largest file.
* `Delivers` says that the incidents carry a part to a worker and then end its body,
  with anything for other workers in between.
* `stream_arrived`: if every worker of a run is fed in this way, every worker is
  complete in the end and has its part on disk.
* `close_arrived`: the run then ends as completed.
-/

namespace SegmentedDownload

/-! ## Workers on a reliable file -/

namespace Worker

variable {w w' : Worker} {p p' : PartialFile} {fault? : Option IoError}

/-- The bytes that a worker received have a place in the largest file. -/
def HasRoom (w : Worker) (p : PartialFile) : Prop :=
  p.payloadOffset + w.slot.resumeStart.toNat + w.received ≤ OpenFile.maxPosition

/-- A flush inside of its slot cannot fail on a medium without faults. -/
theorem flush_reliable (hslot : w.slot.IsSound) (h : w.Sound p) (hfile : p.file.Reliable)
    (hroom : w.HasRoom p) (hf : w.flush p = (w', p', fault?)) :
    fault? = none ∧ p'.file.Reliable := by
  by_cases hb : w.buffer = []
  · obtain ⟨-, rfl, rfl⟩ := flush_nil hf hb
    exact ⟨rfl, hfile⟩
  · have hwrite := (flush_eq hf hb).1
    have hreceived := h.received_eq
    have hposition : p.payloadOffset + (w.slot.resumeStart.toNat + w.written) ≤
        OpenFile.maxPosition := by
      unfold HasRoom at hroom
      omega
    have hreliable := PartialFile.writePayload_reliable hfile hposition w.buffer
    rw [flush_position hslot h hb] at hwrite
    rw [hwrite] at hreliable
    exact hreliable

theorem push_reliable (hslot : w.slot.IsSound) (h : w.Sound p) (hfile : p.file.Reliable)
    (hroom : w.HasRoom p) {data : Bytes} (hf : w.push p data = (w', p', fault?)) :
    fault? = none ∧ p'.file.Reliable ∧ w'.state = w.state := by
  unfold push at hf
  split at hf
  · cases hflush : w.flush p with
    | mk w₁ result =>
      obtain ⟨p₁, fault₁?⟩ := result
      have hresult := flush_result hflush
      obtain ⟨rfl, hreliable⟩ := flush_reliable hslot h hfile hroom hflush
      obtain rfl : w₁ = w.flushed := hresult
      rw [hflush] at hf
      obtain ⟨rfl, rfl, rfl⟩ := hf
      refine ⟨rfl, hreliable, ?_⟩
      simp only [append, enlarge]
      split <;> rfl
  · obtain ⟨rfl, rfl, rfl⟩ := hf
    exact ⟨rfl, hfile, rfl⟩

theorem receive_reliable (hslot : w.slot.IsSound) (h : w.Sound p) (hfile : p.file.Reliable)
    (hroom : w.HasRoom p) {chunk : Bytes} (hf : w.receive p chunk = (w', p', fault?)) :
    fault? = none ∧ p'.file.Reliable ∧ w'.state = w.state := by
  unfold receive at hf
  cases hpush : w.push p (w.clip chunk) with
  | mk w₁ result =>
    obtain ⟨p₁, fault₁?⟩ := result
    obtain ⟨rfl, hreliable, hstate⟩ := push_reliable hslot h hfile hroom hpush
    rw [hpush] at hf
    obtain ⟨rfl, rfl, rfl⟩ := hf
    exact ⟨rfl, hreliable, hstate⟩

/-- A body that fills its slot ends well. -/
theorem finish_reliable (hslot : w.slot.IsSound) (h : w.Sound p) (hexpects : w.Expects)
    (hfile : p.file.Reliable) (hroom : w.HasRoom p)
    (hfilled : w.isUnbounded = false → w.slot.length ≤ w.received)
    (hf : w.finish p = (w', p', fault?)) : fault? = none ∧ p'.file.Reliable := by
  unfold finish at hf
  cases hflush : w.flush p with
  | mk w₁ result =>
    obtain ⟨p₁, fault₁?⟩ := result
    have hresult := flush_result hflush
    obtain ⟨rfl, hreliable⟩ := flush_reliable hslot h hfile hroom hflush
    obtain rfl : w₁ = w.flushed := hresult
    have hshort : w.flushed.shortfall? = none := by
      rw [shortfall?_flushed]
      cases hu : w.isUnbounded with
      | true => exact shortfall?_of_unbounded hu
      | false =>
        have hlength := hslot.length_eq
        have hle := hfilled hu
        rw [hexpects.shortfall?_eq hu, if_neg (by omega)]
    rw [hflush] at hf
    simp only [hshort] at hf
    obtain ⟨-, rfl, rfl⟩ := hf
    exact ⟨rfl, hreliable⟩

end Worker

/-! ## Bodies that arrive -/

/-- Nothing has ended the body of a worker yet. -/
def Open (incidents : List (Nat × Incident)) (i : Nat) : Prop :=
  ∀ x ∈ incidents, x.2 ≠ .ended i ∧ x.2 ≠ .broken i

/-- The incidents carry a part to a worker, and then end its body. -/
def Delivers (incidents : List (Nat × Incident)) (i : Nat) (part : Bytes) : Prop :=
  ∃ front now back, incidents = front ++ (now, .ended i) :: back ∧ bodyOf front i = part ∧
    bodyOf back i = [] ∧ Open front i

/-- A body stays open if the next incident does not close it. -/
theorem open_snoc {done : List (Nat × Incident)} {x : Nat × Incident} {i : Nat} :
    Open (done ++ [x]) i ↔ Open done i ∧ x.2 ≠ .ended i ∧ x.2 ≠ .broken i := by
  rw [Open, List.forall_mem_append, List.forall_mem_singleton]
  rfl

namespace Delivers

variable {incidents done rest : List (Nat × Incident)} {x : Nat × Incident} {i : Nat}
  {part : Bytes}

/-- All of a body that is delivered has come in the end. -/
theorem bodyOf_eq (h : Delivers incidents i part) : bodyOf incidents i = part := by
  obtain ⟨front, now, back, rfl, hfront, hback, -⟩ := h
  rw [bodyOf_append, hfront,
    show (now, Incident.ended i) :: back = [(now, .ended i)] ++ back from rfl, bodyOf_append, hback]
  simp [bodyOf, Incident.data]

/-- No body is open behind its own end. -/
theorem not_open (h : Delivers incidents i part) : ¬ Open incidents i := by
  obtain ⟨front, now, back, rfl, -⟩ := h
  intro hopen
  exact (hopen (now, .ended i) (by simp)).1 rfl

/-- While a body is open, only its end can close it, and that comes behind the part. -/
theorem next (h : Delivers (done ++ x :: rest) i part) (hopen : Open done i) :
    x.2 ≠ .broken i ∧ (x.2 = .ended i → bodyOf done i = part) := by
  obtain ⟨front, now, back, heq, hpart, -, hfront⟩ := h
  rcases List.append_eq_append_iff.mp heq with ⟨between, rfl, hrest⟩ | ⟨between, rfl, hback⟩
  · cases between with
    | nil =>
      obtain ⟨rfl, -⟩ := List.cons.inj hrest
      rw [List.append_nil] at hpart
      exact ⟨Incident.noConfusion, fun _ => hpart⟩
    | cons y between =>
      obtain ⟨rfl, -⟩ := List.cons.inj hrest
      have hx := hfront x (by simp)
      exact ⟨hx.2, fun hended => absurd hended hx.1⟩
  · cases between with
    | nil =>
      obtain ⟨rfl, -⟩ := List.cons.inj hback
      rw [List.append_nil]
      exact ⟨Incident.noConfusion, fun _ => hpart⟩
    | cons y between =>
      obtain ⟨rfl, -⟩ := List.cons.inj hback
      exact absurd rfl (hopen (now, .ended i) (by simp)).1

end Delivers

/-! ## Runs -/

namespace Transfer

variable {t₀ t t' : Transfer} {incidents done rest : List (Nat × Incident)}
  {parts : Nat → Bytes}

/-- A worker gets a part that fits its slot, and fills it if it is bounded. -/
structure Gets (t₀ : Transfer) (incidents : List (Nat × Incident)) (i : Nat) (w : Worker)
    (part : Bytes) : Prop where
  streaming : w.state = .streaming
  delivers : Delivers incidents i part
  length_le : part.length ≤ w.slot.length
  fills : w.isUnbounded = false → part.length = w.slot.length
  room : t₀.file.payloadOffset + w.slot.resumeStart.toNat + part.length ≤ OpenFile.maxPosition

/-- Every worker of a run gets its part. -/
structure Fed (t₀ : Transfer) (incidents : List (Nat × Incident)) (parts : Nat → Bytes) :
    Prop where
  reliable : t₀.file.file.Reliable
  nonstop : ∀ x ∈ incidents, x.2 ≠ .stop
  gets : ∀ (i : Nat) (w : Worker), t₀.workers[i]? = some w → t₀.Gets incidents i w (parts i)

/-- A worker that is fed takes all that arrives for it. -/
theorem Fed.bodies_eq (h : Fed t₀ incidents parts) {i : Nat} {w : Worker}
    (hw : t₀.workers[i]? = some w) (done : List (Nat × Incident)) :
    t₀.bodies done i = bodyOf done i := by
  rw [bodies, streaming?_eq_some.mpr ⟨hw, (h.gets i w hw).streaming⟩]
  rfl

theorem Fed.fits (h : Fed t₀ incidents parts) : Fits t₀ (t₀.bodies incidents) := by
  intro i w hw _
  have hgets := h.gets i w hw
  rw [h.bodies_eq hw, hgets.delivers.bodyOf_eq]
  exact hgets.length_le

/-- What holds while all bodies arrive: a worker either waits for more of its body,
or has all of it. -/
structure Arrives (t₀ : Transfer) (parts : Nat → Bytes) (done : List (Nat × Incident))
    (t : Transfer) : Prop where
  follows : Follows t₀ done t
  fatal : t.fatal? = none
  stopped : t.stopped = false
  reliable : t.file.file.Reliable
  worker : ∀ (i : Nat) (w : Worker), t.workers[i]? = some w →
    (w.state = .streaming ∧ Open done i) ∨
      (w.state = .complete ∧ w.received = (parts i).length)

/-- While the bodies arrive nothing has failed and nobody has asked to stop. -/
theorem Arrives.running (h : Arrives t₀ parts done t) : t.isHalted = false :=
  isHalted_eq_false.mpr ⟨h.fatal, h.stopped⟩

section Step

variable {x : Nat × Incident} {i : Nat} {w w' : Worker}

/-- What a worker that still streams received up to now. -/
theorem Arrives.received_eq (hfed : Fed t₀ incidents parts) (h : Arrives t₀ parts done t)
    (hw : t.workers[i]? = some w) (hstate : w.state = .streaming) :
    w.received = min w.slot.length (bodyOf done i).length := by
  obtain ⟨w₀, hw₀, -⟩ := h.follows.streamed.slot_eq hw
  have htaken := h.follows.current h.running i w hw hstate
  rw [← (h.follows.streamed.tracks i w hw).sound.length_taken, htaken, List.length_take,
    hfed.bodies_eq hw₀]

/-- There is room in the file for all that a worker is yet to get. -/
theorem Arrives.hasRoom (hfed : Fed t₀ (done ++ rest) parts) (h : Arrives t₀ parts done t)
    (hw : t.workers[i]? = some w) (hstate : w.state = .streaming) : w.HasRoom t.file := by
  obtain ⟨w₀, hw₀, hslot⟩ := h.follows.streamed.slot_eq hw
  have hroom := (hfed.gets i w₀ hw₀).room
  have hreceived := h.received_eq hfed hw hstate
  have hle := (bodyOf_front done rest i).length_le
  rw [(hfed.gets i w₀ hw₀).delivers.bodyOf_eq] at hle
  rw [hslot] at hroom
  rw [Worker.HasRoom, h.follows.streamed.offset_eq]
  omega

/-- A worker that streams waits for more of its body. -/
theorem Arrives.isOpen (h : Arrives t₀ parts done t) (hw : t.workers[i]? = some w)
    (hstate : w.state = .streaming) : Open done i := by
  rcases h.worker i w hw with ⟨-, hopen⟩ | ⟨hcomplete, -⟩
  · exact hopen
  · rw [hstate] at hcomplete
    contradiction

/-- While a worker streams, its body does not break off, and ends only when the worker has
all of its part. -/
theorem Arrives.next (hfed : Fed t₀ (done ++ x :: rest) parts) (h : Arrives t₀ parts done t)
    (hw : t.workers[i]? = some w) (hstate : w.state = .streaming) :
    x.2 ≠ .broken i ∧ (x.2 = .ended i → w.received = (parts i).length ∧
      (w.isUnbounded = false → w.slot.length ≤ w.received)) := by
  obtain ⟨w₀, hw₀, hslot⟩ := h.follows.streamed.slot_eq hw
  have hgets := hfed.gets i w₀ hw₀
  obtain ⟨hunbroken, hall⟩ := hgets.delivers.next (h.isOpen hw hstate)
  refine ⟨hunbroken, fun hended => ?_⟩
  have hreceived : w.received = (parts i).length := by
    rw [h.received_eq hfed hw hstate, hall hended, ← hslot, Nat.min_eq_right hgets.length_le]
  refine ⟨hreceived, fun hu => ?_⟩
  rw [hreceived, hgets.fills (by rw [Worker.isUnbounded, hslot]; exact hu), hslot]

/-- An incident about a worker changes that worker alone. -/
theorem Arrives.set (h : Arrives t₀ parts done t) (hfollows : Follows t₀ (done ++ [x]) t')
    (habout : x.2.worker? = some i) (hw : t.workers[i]? = some w)
    (hnew : (w'.state = .streaming ∧ Open (done ++ [x]) i) ∨
      (w'.state = .complete ∧ w'.received = (parts i).length))
    (hworkers : t'.workers = t.workers.set i w') (hfatal : t'.fatal? = none)
    (hstopped : t'.stopped = t.stopped) (hreliable : t'.file.file.Reliable) :
    Arrives t₀ parts (done ++ [x]) t' := by
  refine ⟨hfollows, hfatal, hstopped.trans h.stopped, hreliable, fun j v hv => ?_⟩
  rw [hworkers] at hv
  by_cases hij : i = j
  · subst hij
    rw [List.getElem?_set_self (List.getElem?_eq_some_iff.mp hw).1] at hv
    obtain rfl := Option.some.inj hv
    exact hnew
  · rw [List.getElem?_set_ne hij] at hv
    have hspared : x.2.worker? ≠ some j := fun hj =>
      hij (Option.some.inj (habout.symm.trans hj))
    exact (h.worker j v hv).imp_left fun ⟨hs, hopen⟩ =>
      ⟨hs, open_snoc.mpr ⟨hopen, Incident.open_of_ne hspared⟩⟩

/-- Every incident keeps what holds while all bodies arrive. -/
theorem Arrives.step (hready : t₀.Ready) {now : Nat} {incident : Incident}
    (hfed : Fed t₀ (done ++ (now, incident) :: rest) parts) (h : Arrives t₀ parts done t)
    (hstep : Step t now incident t') : Arrives t₀ parts (done ++ [(now, incident)]) t' := by
  have hfit : Fits t₀ (t₀.bodies ((done ++ [(now, incident)]) ++ rest)) := by
    rw [List.append_assoc]
    exact hfed.fits
  have hfollows := h.follows.step hready hstep hfit.front
  cases hstep with
  | halted _ hhalted =>
    rw [h.running] at hhalted
    contradiction
  | stopped _ => exact absurd rfl (hfed.nonstop (now, .stop) (by simp))
  | unheard _ i _ habout hstream =>
    refine ⟨hfollows, h.fatal, h.stopped, h.reliable, fun j v hv => ?_⟩
    rcases h.worker j v hv with ⟨hstate, hopen⟩ | hcomplete
    · refine Or.inl ⟨hstate, open_snoc.mpr ⟨hopen, Incident.open_of_ne fun hj => ?_⟩⟩
      obtain rfl := Option.some.inj (habout.symm.trans hj)
      exact streaming?_eq_none hstream hv hstate
    · exact Or.inr hcomplete
  | refused i data w w' p' cause _ hstream hreceive =>
    obtain ⟨hw, hstate⟩ := streaming?_eq_some.mp hstream
    obtain ⟨hnone, -⟩ := Worker.receive_reliable (h.follows.streamed.slot_isSound hready hw)
      (h.follows.streamed.tracks i w hw).sound h.reliable (h.hasRoom hfed hw hstate) hreceive
    contradiction
  | received i data w w' p' _ hstream hreceive =>
    obtain ⟨hw, hstate⟩ := streaming?_eq_some.mp hstream
    obtain ⟨-, hreliable, hstate'⟩ := Worker.receive_reliable
      (h.follows.streamed.slot_isSound hready hw) (h.follows.streamed.tracks i w hw).sound
      h.reliable (h.hasRoom hfed hw hstate) hreceive
    have hopen : Open (done ++ [(now, .chunk i data)]) i :=
      open_snoc.mpr ⟨h.isOpen hw hstate, Incident.noConfusion, Incident.noConfusion⟩
    exact h.set hfollows rfl hw (Or.inl ⟨hstate'.trans hstate, hopen⟩) rfl rfl rfl hreliable
  | ended i w w' p' fault? _ hstream hfinish =>
    obtain ⟨hw, hstate⟩ := streaming?_eq_some.mp hstream
    have htracks := h.follows.streamed.tracks i w hw
    have hslot := h.follows.streamed.slot_isSound hready hw
    obtain ⟨hreceived, hfilled⟩ := (h.next hfed hw hstate).2 rfl
    obtain ⟨hfinished, -, hend⟩ :=
      Worker.finish_step hslot htracks.sound (htracks.expects hstate) hfinish
    obtain ⟨rfl, hreliable⟩ := Worker.finish_reliable hslot htracks.sound
      (htracks.expects hstate) h.reliable (h.hasRoom hfed hw hstate) hfilled hfinish
    have hlength : w'.received = w.received := by
      rw [← hfinished.sound.length_taken, hfinished.taken_eq, List.append_nil,
        htracks.sound.length_taken]
    have hcomplete : w'.state = .complete := by
      rcases hend with ⟨-, hfault⟩ | ⟨hcomplete, -⟩
      · contradiction
      · exact hcomplete
    exact h.set hfollows rfl hw (Or.inr ⟨hcomplete, hlength.trans hreceived⟩) rfl rfl rfl
      hreliable
  | broken i w _ hstream =>
    obtain ⟨hw, hstate⟩ := streaming?_eq_some.mp hstream
    exact absurd rfl (h.next hfed hw hstate).1

end Step

/-- While the incidents of a fed run arrive, nothing goes wrong. -/
theorem stream_arrives_front (hready : t₀.Ready) (hfed : Fed t₀ (done ++ rest) parts) :
    Arrives t₀ parts done (t₀.stream done) := by
  induction done using List.reverseRecOn generalizing rest with
  | nil =>
    have hrunning := isHalted_eq_false.mp hready.running
    refine ⟨stream_follows hready fun i w _ _ => ?_, hrunning.1, hrunning.2, hfed.reliable, ?_⟩
    · simp [bodies, bodyOf]
    · intro i w hw
      exact Or.inl ⟨(hfed.gets i w hw).streaming, fun x hx => absurd hx List.not_mem_nil⟩
  | append_singleton done x ih =>
    rw [stream_snoc]
    rw [List.append_assoc] at hfed
    exact (ih hfed).step hready hfed (step_deliver _ _ _)

/-! ## The end of a run -/

/-- All workers are complete, and each has its part on disk. -/
structure HasArrived (parts : Nat → Bytes) (u : Transfer) : Prop where
  running : u.isHalted = false
  reliable : u.file.file.Reliable
  complete : ∀ w ∈ u.workers, w.state = .complete
  stored : ∀ (i : Nat) (w : Worker), u.workers[i]? = some w →
    w.written = (parts i).length ∧ w.stored u.file = parts i

/-- Flushing empty buffers does nothing. -/
theorem flushAll_of_empty (h : ∀ w ∈ t.workers, w.buffer = []) :
    t.flushAll.workers = t.workers ∧ t.flushAll.file = t.file ∧ t.flushAll.fatal? = t.fatal? := by
  refine flushAll_induction (motive := fun _ u =>
    u.workers = t.workers ∧ u.file = t.file ∧ u.fatal? = t.fatal?) t ⟨rfl, rfl, rfl⟩ ?_
  rintro n u w hw ⟨hworkers, hfile, hfatal⟩
  have hflush : w.flush u.file = (w, u.file, none) := by
    rw [Worker.flush, h w (List.mem_of_getElem? hw)]
    rfl
  rw [flushOne_eq hflush]
  refine ⟨?_, hfile, ?_⟩
  · obtain ⟨hlt, rfl⟩ := List.getElem?_eq_some_iff.mp hw
    rw [hworkers, List.set_getElem_self hlt]
  · simp [hfatal]

/-- In the end of a fed run everything has arrived. -/
theorem stream_arrived (hready : t₀.Ready) (hfed : Fed t₀ incidents parts) :
    HasArrived parts (t₀.stream incidents).flushAll := by
  have hall : Fed t₀ (incidents ++ []) parts := by rwa [List.append_nil]
  have harrives : Arrives t₀ parts incidents (t₀.stream incidents) :=
    stream_arrives_front hready hall
  have hstreamed := harrives.follows.streamed
  have hcomplete : ∀ (i : Nat) (w : Worker), (t₀.stream incidents).workers[i]? = some w →
      w.state = .complete ∧ w.received = (parts i).length := by
    intro i w hw
    obtain ⟨w₀, hw₀, -⟩ := hstreamed.slot_eq hw
    rcases harrives.worker i w hw with ⟨-, hopen⟩ | hcomplete
    · exact absurd hopen (hfed.gets i w₀ hw₀).delivers.not_open
    · exact hcomplete
  have hempty : ∀ w ∈ (t₀.stream incidents).workers, w.buffer = [] := by
    intro w hw
    obtain ⟨i, hi⟩ := List.getElem?_of_mem hw
    exact ((hstreamed.tracks i w hi).complete (hcomplete i w hi).1).1
  obtain ⟨hworkers, hfile, hfatal⟩ := flushAll_of_empty hempty
  refine ⟨?_, ?_, ?_, ?_⟩
  · simp [isHalted, hfatal, harrives.fatal, flushAll_stopped, harrives.stopped]
  · rw [hfile]
    exact harrives.reliable
  · rw [hworkers]
    intro w hw
    obtain ⟨i, hi⟩ := List.getElem?_of_mem hw
    exact (hcomplete i w hi).1
  · intro i w hw
    rw [hworkers] at hw
    obtain ⟨w₀, hw₀, -⟩ := hstreamed.slot_eq hw
    have htracks := hstreamed.tracks i w hw
    have htaken := htracks.taken_front
    have hlength := htracks.sound.length_taken
    rw [hfed.bodies_eq hw₀, (hfed.gets i w₀ hw₀).delivers.bodyOf_eq] at htaken
    rw [(hcomplete i w hw).2] at hlength
    have hall := htaken.eq_of_length hlength
    rw [Worker.taken, hempty w (List.mem_of_getElem? hw), List.append_nil] at hall
    rw [hfile, ← hall]
    exact ⟨htracks.sound.length_stored.symm, rfl⟩

/-- When all bodies have arrived the file is complete. -/
theorem HasArrived.isComplete {u : Transfer} (h : HasArrived parts u) : u.isComplete = true := by
  rw [Transfer.isComplete, Bool.or_eq_true, List.all_eq_true]
  exact Or.inl fun w hw => by rw [h.complete w hw]; rfl

/-- A run in which everything has arrived is completed. -/
theorem close_arrived (hready : t₀.Ready) (hfed : Fed t₀ incidents parts) (now : Nat) :
    (t₀.stream incidents).close now =
      (.ok (.completed (Word.toUnsigned (t₀.stream incidents).flushAll.payloadLength)),
        (t₀.stream incidents).flushAll.announce now) := by
  have harrived := stream_arrived hready hfed
  simp [close, harrived.running, harrived.isComplete]

end Transfer

end SegmentedDownload
