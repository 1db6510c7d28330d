import Mathlib
import SegmentedDownload.Transfer
import SegmentedDownload.Proofs.Buffering

/-!
# SegmentedDownload.Proofs.Streaming

What a run has done with the bodies that arrived so far.

* `bodyOf incidents i` is the body for the `i`-th worker, as far as it arrived.
  `Transfer.bodies` leaves out the bodies that no worker listens to.
* `Transfer.Ready` is what setup leaves: workers with nothing in their hands, for
  ranges that have no byte in common.
* `Transfer.Streamed t₀ bodies t` relates such a run to a later one: every worker
  took a front part of its body, and every byte of the file is either the old one
  or comes from a body, at its place in the range of its worker.

`Streamed` is kept by every step of every worker (`Streamed.step`).  Until the run
halts, a worker whose body still arrives has taken all of it that its slot has
room for (`Current`), which is what lets the next chunk continue it.

`Transfer.Step` says once what an incident makes of a run, and all that a run keeps
is derived from it: one lemma per invariant with a case for each kind of step, then
an induction over the incidents (`Follows.step`, `stream_follows`).
-/

namespace SegmentedDownload

/-! ## Bodies -/

/-- What an incident adds to the body of the `i`-th worker. -/
def Incident.data (i : Nat) : Incident → Bytes
  | .chunk j data => if j = i then data else []
  | _ => []

/-- The worker that an incident is about. -/
def Incident.worker? : Incident → Option Nat
  | .chunk i _ => some i
  | .ended i => some i
  | .broken i => some i
  | .stop => none

/-- An incident brings nothing for a worker that it is not about. -/
theorem Incident.data_of_ne {incident : Incident} {i : Nat} (h : incident.worker? ≠ some i) :
    incident.data i = [] := by
  cases incident with
  | chunk j data => exact if_neg fun hij => h (congrArg some hij)
  | ended _ => rfl
  | broken _ => rfl
  | stop => rfl

/-- An incident does not close the body of a worker that it is not about. -/
theorem Incident.open_of_ne {incident : Incident} {i : Nat} (h : incident.worker? ≠ some i) :
    incident ≠ .ended i ∧ incident ≠ .broken i := by
  constructor <;> rintro rfl <;> exact h rfl

/-- The body of the `i`-th worker, as far as some incidents bring it. -/
def bodyOf (incidents : List (Nat × Incident)) (i : Nat) : Bytes :=
  incidents.flatMap fun x => x.2.data i

/-- What arrives in two parts arrives one after the other. -/
theorem bodyOf_append (xs ys : List (Nat × Incident)) (i : Nat) :
    bodyOf (xs ++ ys) i = bodyOf xs i ++ bodyOf ys i := by
  simp [bodyOf]

theorem bodyOf_snoc (xs : List (Nat × Incident)) (x : Nat × Incident) (i : Nat) :
    bodyOf (xs ++ [x]) i = bodyOf xs i ++ x.2.data i := by
  simp [bodyOf]

/-- What has arrived is the front of what will have. -/
theorem bodyOf_front (xs ys : List (Nat × Incident)) (i : Nat) :
    bodyOf xs i <+: bodyOf (xs ++ ys) i := by
  rw [bodyOf_append]
  exact List.prefix_append _ _

namespace Transfer

/-- A worker that streams is one of the workers. -/
theorem streaming?_eq_some {t : Transfer} {i : Nat} {w : Worker} :
    t.streaming? i = some w ↔ t.workers[i]? = some w ∧ w.state = .streaming := by
  unfold streaming?
  rw [Option.filter_eq_some_iff, decide_eq_true_iff]

/-- A worker that is not found streaming is not. -/
theorem streaming?_eq_none {t : Transfer} {i : Nat} {w : Worker} (h : t.streaming? i = none)
    (hw : t.workers[i]? = some w) : w.state ≠ .streaming := by
  intro hstate
  rw [streaming?_eq_some.mpr ⟨hw, hstate⟩] at h
  contradiction

/-- The bodies for the workers that stream, as far as some incidents bring them. -/
def bodies (t : Transfer) (incidents : List (Nat × Incident)) (i : Nat) : Bytes :=
  if (t.streaming? i).isSome then bodyOf incidents i else []

theorem bodies_front (t : Transfer) (xs ys : List (Nat × Incident)) (i : Nat) :
    t.bodies xs i <+: t.bodies (xs ++ ys) i := by
  unfold bodies
  split
  · exact bodyOf_front xs ys i
  · exact List.nil_prefix

/-- What streams in a run is a part of what arrives. -/
theorem getElem?_bodies {t : Transfer} {incidents : List (Nat × Incident)} {i n : Nat} {b : UInt8}
    (h : (t.bodies incidents i)[n]? = some b) : (bodyOf incidents i)[n]? = some b := by
  unfold bodies at h
  split at h
  · exact h
  · contradiction

/-- An incident that brings nothing for a worker leaves its body as it is. -/
theorem bodies_snoc_eq (t : Transfer) (xs : List (Nat × Incident)) {x : Nat × Incident} {i : Nat}
    (h : x.2.data i = []) : t.bodies (xs ++ [x]) i = t.bodies xs i := by
  unfold bodies
  rw [bodyOf_snoc, h, List.append_nil]

/-- A chunk for a worker that streams goes on with its body. -/
theorem bodies_snoc_chunk (t : Transfer) (xs : List (Nat × Incident)) {i : Nat}
    (h : (t.streaming? i).isSome) {now : Nat} {data : Bytes} :
    t.bodies (xs ++ [(now, .chunk i data)]) i = t.bodies xs i ++ data := by
  unfold bodies
  rw [if_pos h, if_pos h, bodyOf_snoc]
  simp [Incident.data]

end Transfer

namespace Worker

/-- The worker took a front part of its body, and is in order. -/
structure Tracks (w : Worker) (p : PartialFile) (body : Bytes) : Prop where
  sound : w.Sound p
  taken_front : w.taken p <+: body
  expects : w.state = .streaming → w.Expects
  complete : w.state = .complete →
    w.buffer = [] ∧ (w.isUnbounded = false → w.received = w.slot.length)

theorem Tracks.mono {w : Worker} {p : PartialFile} {body body' : Bytes} (h : w.Tracks p body)
    (hle : body <+: body') : w.Tracks p body' :=
  ⟨h.sound, h.taken_front.trans hle, h.expects, h.complete⟩

/-- A worker that is up to date goes on with its body: it stays up to date, or it fails
with the file. -/
theorem Tracks.receive {w w' : Worker} {p p' : PartialFile} {body data : Bytes}
    {fault? : Option IoError} (h : w.Tracks p body) (hslot : w.slot.IsSound)
    (hstate : w.state = .streaming) (hcurrent : w.taken p = body.take w.slot.length)
    (hroom : w.isUnbounded = true → w.received + data.length ≤ w.slot.length)
    (hreceive : w.receive p data = (w', p', fault?)) :
    (∃ taken, Step w p taken w' p') ∧ w'.Tracks p' (body ++ data) ∧
      (w'.state = .streaming → w'.taken p' = (body ++ data).take w'.slot.length) := by
  obtain ⟨hstep, hstate', hexpected⟩ :=
    receive_step hslot h.sound (h.expects hstate) hroom hreceive
  have hexpects : w'.Expects := by
    intro hu
    rw [hexpected, hstep.slot_eq]
    refine h.expects hstate ?_
    rw [isUnbounded, ← hstep.slot_eq]
    exact hu
  cases fault? with
  | some cause =>
    have hsame : w'.taken p' = w.taken p := by simp [hstep.taken_eq]
    have hfailed : w'.state = .failed := hstate'
    refine ⟨⟨_, hstep⟩, ⟨hstep.sound, ?_, fun _ => hexpects, fun hc => ?_⟩, fun hs => ?_⟩
    · rw [hsame]
      exact h.taken_front.trans (List.prefix_append _ _)
    · rw [hfailed] at hc
      contradiction
    · rw [hfailed] at hs
      contradiction
  | none =>
    have hstreams : w'.state = .streaming := hstate'.trans hstate
    have htaken : w'.taken p' = (body ++ data).take w'.slot.length := by
      rw [hstep.taken_eq, hstep.slot_eq, Option.isSome_none, if_neg Bool.false_ne_true,
        taken_append_take h.sound data, hcurrent, List.take_append, List.take_append,
        List.take_take, Nat.min_self, List.length_take]
      congr 1
      by_cases hlen : body.length ≤ w.slot.length
      · rw [Nat.min_eq_right hlen]
      · congr 1
        omega
    refine ⟨⟨_, hstep⟩, ⟨hstep.sound, ?_, fun _ => hexpects, fun hc => ?_⟩, fun _ => htaken⟩
    · rw [htaken]
      exact List.take_prefix _ _
    · rw [hstreams] at hc
      contradiction

end Worker

namespace Transfer

/-! ## The relation to the beginning -/

/-- The run is about to stream. -/
structure Ready (t : Transfer) : Prop where
  slots : ∀ w ∈ t.workers, w.slot.IsSound
  ranges : t.workers.Pairwise fun v w => v.slot.last < w.slot.resumeStart
  idle : ∀ w ∈ t.workers, w.buffer = [] ∧ w.written = 0 ∧ w.received = 0
  expects : ∀ w ∈ t.workers, w.state = .streaming → w.Expects
  incomplete : ∀ w ∈ t.workers, w.state ≠ .complete
  running : t.isHalted = false

/-- The bytes that bodies bring, at their places in the ranges of the workers. -/
def Arrived (t : Transfer) (bodies : Nat → Bytes) (k : Nat) (b : UInt8) : Prop :=
  ∃ (i : Nat) (w : Worker), t.workers[i]? = some w ∧ w.slot.Places t.file.payloadOffset (bodies i) k b

/-- What a run has done since it was ready, with bodies that arrived in part. -/
structure Streamed (t₀ : Transfer) (bodies : Nat → Bytes) (t : Transfer) : Prop where
  slots_eq : t.workers.map (·.slot) = t₀.workers.map (·.slot)
  offset_eq : t.file.payloadOffset = t₀.file.payloadOffset
  readLimit_eq : t.file.file.readLimit = t₀.file.file.readLimit
  patched : Bytes.Patched (t₀.Arrived bodies) t₀.file.file.contents t.file.file.contents
  streams : ∀ i, (t.streaming? i).isSome → (t₀.streaming? i).isSome
  tracks : ∀ (i : Nat) (w : Worker), t.workers[i]? = some w → w.Tracks t.file (bodies i)

/-- Workers whose bodies still arrive took all of them that there is room for. -/
def Current (bodies : Nat → Bytes) (t : Transfer) : Prop :=
  ∀ (i : Nat) (w : Worker), t.workers[i]? = some w → w.state = .streaming →
    w.taken t.file = (bodies i).take w.slot.length

variable {t₀ t t' : Transfer} {bodies bodies' : Nat → Bytes}

/-- A run that is ready has taken nothing of any body. -/
theorem Ready.streamed (h : t₀.Ready) (bodies : Nat → Bytes) : Streamed t₀ bodies t₀ := by
  refine ⟨rfl, rfl, rfl, Bytes.Patched.refl _ _, fun _ h => h, fun i w hw => ?_⟩
  have hmem := List.mem_of_getElem? hw
  obtain ⟨hbuffer, hwritten, hreceived⟩ := h.idle w hmem
  have htaken : w.taken t₀.file = [] := by
    rw [Worker.taken, Worker.stored, PartialFile.payload, hwritten, hbuffer, Bytes.slice_zero]
    rfl
  refine ⟨⟨?_, ?_, ?_⟩, ?_, h.expects w hmem, fun hc => absurd hc (h.incomplete w hmem)⟩
  · rw [Worker.stored, PartialFile.payload, hwritten, Bytes.slice_zero]
    rfl
  · rw [hreceived, hwritten, hbuffer]
    rfl
  · rw [hreceived]
    exact Nat.zero_le _
  · rw [htaken]
    exact List.nil_prefix

/-- At first every worker has all that has arrived, which is nothing. -/
theorem Ready.current (h : t₀.Ready) : Current (t₀.bodies []) t₀ := by
  intro i w hw _
  have hbody : t₀.bodies [] i = [] := ite_self _
  have htaken := ((h.streamed (t₀.bodies [])).tracks i w hw).taken_front
  rw [hbody] at htaken ⊢
  rw [List.prefix_nil.mp htaken, List.take_nil]

/-- Workers keep their slots. -/
theorem Streamed.slot_eq (h : Streamed t₀ bodies t) {i : Nat} {w : Worker}
    (hw : t.workers[i]? = some w) : ∃ w₀, t₀.workers[i]? = some w₀ ∧ w₀.slot = w.slot := by
  have hmap := congrArg (·[i]?) h.slots_eq
  simp only [List.getElem?_map, hw, Option.map_some] at hmap
  obtain ⟨w₀, hw₀, heq⟩ := Option.map_eq_some_iff.mp hmap.symm
  exact ⟨w₀, hw₀, heq⟩

/-- Slots stay sound while bodies arrive. -/
theorem Streamed.slot_isSound (hready : t₀.Ready) (h : Streamed t₀ bodies t) {i : Nat}
    {w : Worker} (hw : t.workers[i]? = some w) : w.slot.IsSound := by
  obtain ⟨w₀, hw₀, heq⟩ := h.slot_eq hw
  exact heq ▸ hready.slots w₀ (List.mem_of_getElem? hw₀)

/-- What two workers ask for has no byte in common. -/
theorem Streamed.disjoint (hready : t₀.Ready) (h : Streamed t₀ bodies t) {i j : Nat}
    {v w : Worker} (hv : t.workers[i]? = some v) (hw : t.workers[j]? = some w) (hij : i ≠ j) :
    v.slot.last < w.slot.resumeStart ∨ w.slot.last < v.slot.resumeStart := by
  obtain ⟨v₀, hv₀, hveq⟩ := h.slot_eq hv
  obtain ⟨w₀, hw₀, hweq⟩ := h.slot_eq hw
  obtain ⟨hi, rfl⟩ := List.getElem?_eq_some_iff.mp hv₀
  obtain ⟨hj, rfl⟩ := List.getElem?_eq_some_iff.mp hw₀
  have hpairs := List.pairwise_iff_getElem.mp hready.ranges
  rw [← hveq, ← hweq]
  rcases Nat.lt_or_gt_of_ne hij with hlt | hgt
  · exact Or.inl (hpairs i j hi hj hlt)
  · exact Or.inr (hpairs j i hj hi hgt)

theorem Arrived.mono {k : Nat} {b : UInt8} (h : t.Arrived bodies k b)
    (hle : ∀ j, bodies j <+: bodies' j) : t.Arrived bodies' k b := by
  obtain ⟨i, w, hw, hplaces⟩ := h
  exact ⟨i, w, hw, hplaces.mono (hle i)⟩

theorem Streamed.mono (h : Streamed t₀ bodies t) (hle : ∀ j, bodies j <+: bodies' j) :
    Streamed t₀ bodies' t :=
  ⟨h.slots_eq, h.offset_eq, h.readLimit_eq, h.patched.mono fun _ _ hb => hb.mono hle, h.streams,
    fun i w hw => (h.tracks i w hw).mono (hle i)⟩

/-- A step of one worker does not change what the others took. -/
theorem Streamed.others (hready : t₀.Ready) (h : Streamed t₀ bodies t) {i j : Nat}
    {v w w' : Worker} {p' : PartialFile} {data : Bytes} (hw : t.workers[i]? = some w)
    (hstep : Worker.Step w t.file data w' p') (hv : t.workers[j]? = some v) (hij : j ≠ i) :
    v.taken p' = v.taken t.file ∧ v.Sound p' := by
  have hsound := (h.tracks j v hv).sound
  refine hsound.of_patched hstep.offset_eq hstep.patched fun k b hge hlt hplaces => ?_
  obtain ⟨n, hn, rfl, -⟩ := hplaces
  have hdisjoint := h.disjoint hready hv hw hij
  have hvslot := h.slot_isSound hready hv
  have hwslot := h.slot_isSound hready hw
  have hvlength := hvslot.length_eq
  have hwlength := hwslot.length_eq
  have hv0 := hvslot.start_nonneg
  have hw0 := hwslot.start_nonneg
  have hvstart := hvslot.start_le
  have hwstart := hwslot.start_le
  have hreceived := hsound.received_eq
  have hle := hsound.received_le
  omega

/-- Every step of a worker is one of the run. -/
theorem Streamed.step (hready : t₀.Ready) (h : Streamed t₀ bodies t)
    (hle : ∀ j, bodies j <+: bodies' j) {i : Nat} {w w' : Worker} {p' : PartialFile}
    {data : Bytes} (hw : t.workers[i]? = some w) (hstep : Worker.Step w t.file data w' p')
    (hstate : w'.state = .streaming → w.state = .streaming)
    (htracks : w'.Tracks p' (bodies' i)) (hworkers : t'.workers = t.workers.set i w')
    (hfile : t'.file = p') : Streamed t₀ bodies' t' := by
  subst hfile
  refine ⟨?_, hstep.offset_eq.trans h.offset_eq, hstep.readLimit_eq.trans h.readLimit_eq, ?_, ?_,
    ?_⟩
  · have hslot : (t.workers.map (·.slot))[i]? = some w.slot := by simp [hw]
    obtain ⟨hi, heq⟩ := List.getElem?_eq_some_iff.mp hslot
    rw [hworkers, List.map_set, hstep.slot_eq, ← heq, List.set_getElem_self, h.slots_eq]
  · refine (h.patched.mono fun _ _ hb => hb.mono hle).trans (hstep.patched.mono fun k b hb => ?_)
    obtain ⟨w₀, hw₀, heq⟩ := h.slot_eq hw
    rw [← hstep.taken_eq, h.offset_eq, ← heq] at hb
    exact ⟨i, w₀, hw₀, hb.mono htracks.taken_front⟩
  · intro j hj
    obtain ⟨v, hv⟩ := Option.isSome_iff_exists.mp hj
    obtain ⟨hv, hvstate⟩ := streaming?_eq_some.mp hv
    rw [hworkers] at hv
    by_cases hij : j = i
    · subst hij
      rw [List.getElem?_set_self (List.getElem?_eq_some_iff.mp hw).1] at hv
      obtain rfl := Option.some.inj hv
      exact h.streams j (Option.isSome_iff_exists.mpr
        ⟨w, streaming?_eq_some.mpr ⟨hw, hstate hvstate⟩⟩)
    · rw [List.getElem?_set_ne (Ne.symm hij)] at hv
      exact h.streams j (Option.isSome_iff_exists.mpr ⟨v, streaming?_eq_some.mpr ⟨hv, hvstate⟩⟩)
  · intro j v hv
    rw [hworkers] at hv
    by_cases hij : j = i
    · subst hij
      have hlt := (List.getElem?_eq_some_iff.mp hw).1
      rw [List.getElem?_set_self hlt] at hv
      exact Option.some.inj hv ▸ htracks
    · rw [List.getElem?_set_ne (Ne.symm hij)] at hv
      obtain ⟨htaken, hsound⟩ := h.others hready hw hstep hv hij
      have hold := h.tracks j v hv
      exact ⟨hsound, htaken ▸ hold.taken_front.trans (hle j), hold.expects, hold.complete⟩

/-- The step of one worker keeps all of them current. -/
theorem Current.step (hready : t₀.Ready) (h : Streamed t₀ bodies t) (hcur : Current bodies t)
    {i : Nat} {w w' : Worker} {p' : PartialFile} {data : Bytes}
    (hsame : ∀ j, j ≠ i → bodies' j = bodies j) (hw : t.workers[i]? = some w)
    (hstep : Worker.Step w t.file data w' p')
    (hnew : w'.state = .streaming → w'.taken p' = (bodies' i).take w'.slot.length)
    (hworkers : t'.workers = t.workers.set i w') (hfile : t'.file = p') :
    Current bodies' t' := by
  subst hfile
  intro j v hv hstate
  rw [hworkers] at hv
  by_cases hij : j = i
  · subst hij
    rw [List.getElem?_set_self (List.getElem?_eq_some_iff.mp hw).1] at hv
    obtain rfl := Option.some.inj hv
    exact hnew hstate
  · rw [List.getElem?_set_ne (Ne.symm hij)] at hv
    rw [(h.others hready hw hstep hv hij).1, hsame j hij]
    exact hcur j v hv hstate

/-! ## Incidents -/

/-- A run goes on as long as it has no error and was not stopped. -/
theorem isHalted_eq_false {t : Transfer} :
    t.isHalted = false ↔ t.fatal? = none ∧ t.stopped = false := by
  rw [isHalted, Bool.or_eq_false_iff, Option.isSome_eq_false_iff, Option.isNone_iff_eq_none]

/-- What an incident makes of a run. -/
inductive Step (t : Transfer) (now : Nat) : Incident → Transfer → Prop
  | halted (incident : Incident) (hhalted : t.isHalted = true) : Step t now incident t
  | stopped (hrunning : t.isHalted = false) : Step t now .stop { t with stopped := true }
  | unheard (incident : Incident) (i : Nat) (hrunning : t.isHalted = false)
      (habout : incident.worker? = some i) (hstream : t.streaming? i = none) :
    Step t now incident t
  | refused (i : Nat) (data : Bytes) (w w' : Worker) (p' : PartialFile) (cause : IoError)
      (hrunning : t.isHalted = false) (hstream : t.streaming? i = some w)
      (hreceive : w.receive t.file data = (w', p', some cause)) :
    Step t now (.chunk i data) (t.advance i (w', p', some cause))
  | received (i : Nat) (data : Bytes) (w w' : Worker) (p' : PartialFile)
      (hrunning : t.isHalted = false) (hstream : t.streaming? i = some w)
      (hreceive : w.receive t.file data = (w', p', none)) :
    Step t now (.chunk i data) ((t.advance i (w', p', none)).report w' now)
  | ended (i : Nat) (w w' : Worker) (p' : PartialFile) (fault? : Option IoError)
      (hrunning : t.isHalted = false) (hstream : t.streaming? i = some w)
      (hfinish : w.finish t.file = (w', p', fault?)) :
    Step t now (.ended i) (t.advance i (w', p', fault?))
  | broken (i : Nat) (w : Worker) (hrunning : t.isHalted = false)
      (hstream : t.streaming? i = some w) :
    Step t now (.broken i) { t with workers := t.workers.set i w.fail }

/-- Whatever happens to a transfer is one of the cases of `Step`. -/
theorem step_deliver (t : Transfer) (now : Nat) (incident : Incident) :
    Step t now incident (t.deliver now incident) := by
  unfold Transfer.deliver
  split
  · next hhalted => exact .halted incident hhalted
  · next hrunning =>
    have hrunning : t.isHalted = false := by simpa using hrunning
    cases incident with
    | stop => exact .stopped hrunning
    | chunk i data =>
      dsimp only
      split
      · next hstream => exact .unheard _ i hrunning rfl hstream
      · next w hstream =>
        split
        · next hreceive => exact .refused i data w _ _ _ hrunning hstream hreceive
        · next hreceive => exact .received i data w _ _ hrunning hstream hreceive
    | ended i =>
      dsimp only
      split
      · next hstream => exact .unheard _ i hrunning rfl hstream
      · next w hstream => exact .ended i w _ _ _ hrunning hstream rfl
    | broken i =>
      dsimp only
      split
      · next hstream => exact .unheard _ i hrunning rfl hstream
      · next w hstream => exact .broken i w hrunning hstream

/-- What is known of a run after some incidents. -/
structure Follows (t₀ : Transfer) (done : List (Nat × Incident)) (t : Transfer) : Prop where
  streamed : Streamed t₀ (t₀.bodies done) t
  current : t.isHalted = false → Current (t₀.bodies done) t
  table_eq : t.table = t₀.table

/-- Bodies of unbounded workers do not reach beyond the last word. -/
def Fits (t : Transfer) (bodies : Nat → Bytes) : Prop :=
  ∀ (i : Nat) (w : Worker), t.workers[i]? = some w → w.isUnbounded = true →
    (bodies i).length ≤ w.slot.length

section Step

variable {done : List (Nat × Incident)} {now i : Nat}

/-- An incident that no worker cares for changes nothing of what is known. -/
theorem Follows.skip (h : Follows t₀ done t) (x : Nat × Incident)
    (hx : ∀ j w, t.workers[j]? = some w → w.state = .streaming → t.isHalted = false →
      x.2.data j = []) : Follows t₀ (done ++ [x]) t := by
  refine ⟨h.streamed.mono fun j => t₀.bodies_front done [x] j, ?_, h.table_eq⟩
  intro hrunning j w hw hstate
  rw [t₀.bodies_snoc_eq done (hx j w hw hstate hrunning)]
  exact h.current hrunning j w hw hstate

/-- A worker that fails or finishes takes nothing, and does not stream any more. -/
theorem Follows.settle (hready : t₀.Ready) (h : Follows t₀ done t) {incident : Incident}
    (hdata : ∀ j, incident.data j = []) {w w' : Worker} {p' : PartialFile}
    (hw : t.workers[i]? = some w) (hstep : Worker.Step w t.file [] w' p')
    (hstate : w'.state ≠ .streaming)
    (hcomplete : w'.state = .complete →
      w'.buffer = [] ∧ (w'.isUnbounded = false → w'.received = w'.slot.length))
    (hworkers : t'.workers = t.workers.set i w') (hfile : t'.file = p')
    (htable : t'.table = t.table) (hhalted : t'.isHalted = false → t.isHalted = false) :
    Follows t₀ (done ++ [(now, incident)]) t' := by
  have hbody : ∀ j, t₀.bodies (done ++ [(now, incident)]) j = t₀.bodies done j :=
    fun j => t₀.bodies_snoc_eq done (hdata j)
  have htracks : w'.Tracks p' (t₀.bodies (done ++ [(now, incident)]) i) := by
    refine ⟨hstep.sound, ?_, fun hs => absurd hs hstate, hcomplete⟩
    rw [hstep.taken_eq, List.append_nil, hbody]
    exact (h.streamed.tracks i w hw).taken_front
  refine ⟨h.streamed.step hready (fun j => by rw [hbody]) hw hstep
    (fun hs => absurd hs hstate) htracks hworkers hfile, ?_, htable.trans h.table_eq⟩
  intro hrunning
  exact Current.step hready h.streamed (h.current (hhalted hrunning)) (fun j _ => hbody j) hw hstep
    (fun hs => absurd hs hstate) hworkers hfile

/-- A chunk for a worker that streams has room in its slot, if the slot has no end. -/
theorem Follows.room (h : Follows t₀ done t) {data : Bytes} {w : Worker}
    (hstream : t.streaming? i = some w)
    (hfit : Fits t₀ (t₀.bodies (done ++ [(now, .chunk i data)])))
    (hu : w.isUnbounded = true) : w.received + data.length ≤ w.slot.length := by
  have hw := (streaming?_eq_some.mp hstream).1
  have htracks := h.streamed.tracks i w hw
  obtain ⟨w₀, hw₀, hslot⟩ := h.streamed.slot_eq hw
  have hle := hfit i w₀ hw₀ (by rw [Worker.isUnbounded, hslot]; exact hu)
  rw [t₀.bodies_snoc_chunk done (h.streamed.streams i (by simp [hstream])), List.length_append,
    hslot] at hle
  have htaken := htracks.taken_front.length_le
  rw [htracks.sound.length_taken] at htaken
  omega

/-- A worker takes a chunk of its body, or fails with the file. -/
theorem Follows.chunk (hready : t₀.Ready) (h : Follows t₀ done t) {data : Bytes}
    (hfit : Fits t₀ (t₀.bodies (done ++ [(now, .chunk i data)]))) (hrunning : t.isHalted = false)
    {w w' : Worker} {p' : PartialFile} {fault? : Option IoError}
    (hstream : t.streaming? i = some w) (hreceive : w.receive t.file data = (w', p', fault?))
    (hworkers : t'.workers = t.workers.set i w') (hfile : t'.file = p')
    (htable : t'.table = t.table) : Follows t₀ (done ++ [(now, .chunk i data)]) t' := by
  obtain ⟨hw, hstate⟩ := streaming?_eq_some.mp hstream
  obtain ⟨⟨taken, hstep⟩, htracks, hcurrent⟩ := (h.streamed.tracks i w hw).receive
    (h.streamed.slot_isSound hready hw) hstate (h.current hrunning i w hw hstate)
    (h.room hstream hfit) hreceive
  rw [← t₀.bodies_snoc_chunk done (h.streamed.streams i (by simp [hstream]))]
    at htracks hcurrent
  refine ⟨h.streamed.step hready (t₀.bodies_front done _) hw hstep (fun _ => hstate) htracks
    hworkers hfile, fun _ => ?_, htable.trans h.table_eq⟩
  refine Current.step hready h.streamed (h.current hrunning) (fun j hj => ?_) hw hstep hcurrent
    hworkers hfile
  exact t₀.bodies_snoc_eq done (Incident.data_of_ne fun hij => hj (Option.some.inj hij).symm)

/-- Failing a worker is a step that takes nothing. -/
theorem fail_step {w : Worker} {p : PartialFile} (h : w.Sound p) :
    Worker.Step w p [] w.fail p :=
  (Worker.step_refl h).of_state .failed

/-- Whatever happens, what is known of the run stays true. -/
theorem Follows.step (hready : t₀.Ready) (h : Follows t₀ done t) {incident : Incident}
    (hstep : Step t now incident t') (hfit : Fits t₀ (t₀.bodies (done ++ [(now, incident)]))) :
    Follows t₀ (done ++ [(now, incident)]) t' := by
  cases hstep with
  | halted _ hhalted =>
    exact h.skip _ fun j w _ _ hrunning => absurd hhalted (by rw [hrunning]; simp)
  | stopped _ =>
    have hstop := h.skip (now, .stop) fun _ _ _ _ _ => rfl
    refine ⟨⟨hstop.streamed.1, hstop.streamed.2, hstop.streamed.3, hstop.streamed.4,
      hstop.streamed.5, hstop.streamed.6⟩, fun hs => ?_, hstop.table_eq⟩
    simp [isHalted] at hs
  | unheard _ i _ habout hstream =>
    refine h.skip _ fun j w hw hstate _ => Incident.data_of_ne fun hj => ?_
    obtain rfl := Option.some.inj (habout.symm.trans hj)
    exact streaming?_eq_none hstream hw hstate
  | refused i data w w' p' cause hrunning hstream hreceive =>
    exact h.chunk hready hfit hrunning hstream hreceive rfl rfl rfl
  | received i data w w' p' hrunning hstream hreceive =>
    exact h.chunk hready hfit hrunning hstream hreceive rfl rfl rfl
  | ended i w w' p' fault? hrunning hstream hfinish =>
    obtain ⟨hw, hstate⟩ := streaming?_eq_some.mp hstream
    have htracks := h.streamed.tracks i w hw
    obtain ⟨hfinished, -, hend⟩ := Worker.finish_step (h.streamed.slot_isSound hready hw)
      htracks.sound (htracks.expects hstate) hfinish
    refine h.settle hready (fun _ => rfl) hw hfinished ?_ ?_ rfl rfl rfl fun _ => hrunning
    · rcases hend with ⟨hs, -⟩ | ⟨hs, -⟩ <;> rw [hs] <;> exact WorkerState.noConfusion
    · intro hc
      rcases hend with ⟨hs, -⟩ | ⟨-, -, hbuffer, hfull⟩
      · rw [hs] at hc
        contradiction
      · refine ⟨hbuffer, fun hu => ?_⟩
        rw [Worker.isUnbounded, hfinished.slot_eq] at hu
        rw [hfinished.slot_eq]
        exact hfull hu
  | broken i w hrunning hstream =>
    obtain ⟨hw, -⟩ := streaming?_eq_some.mp hstream
    refine h.settle hready (fun _ => rfl) hw (fail_step (h.streamed.tracks i w hw).sound)
      ?_ ?_ rfl rfl rfl fun _ => hrunning
    · exact WorkerState.noConfusion
    · exact fun hc => WorkerState.noConfusion hc

end Step

/-! ## Streams -/

theorem stream_snoc (t : Transfer) (done : List (Nat × Incident)) (x : Nat × Incident) :
    t.stream (done ++ [x]) = (t.stream done).deliver x.1 x.2 := by
  simp [stream]

theorem Fits.front {xs ys : List (Nat × Incident)} (h : Fits t₀ (t₀.bodies (xs ++ ys))) :
    Fits t₀ (t₀.bodies xs) := fun i w hw hu =>
  Nat.le_trans (t₀.bodies_front xs ys i).length_le (h i w hw hu)

/-- What is known of a run after all incidents. -/
theorem stream_follows (hready : t₀.Ready) {incidents : List (Nat × Incident)}
    (hfit : Fits t₀ (t₀.bodies incidents)) : Follows t₀ incidents (t₀.stream incidents) := by
  induction incidents using List.reverseRecOn with
  | nil => exact ⟨hready.streamed _, fun _ => hready.current, rfl⟩
  | append_singleton done x ih =>
    rw [stream_snoc]
    exact (ih hfit.front).step hready (step_deliver _ _ _) hfit

end Transfer

end SegmentedDownload
