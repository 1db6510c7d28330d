import Mathlib
import SegmentedDownload.Proofs.EndToEnd

/-!
# SegmentedDownload.Proofs.DigestCheck

The check of a digest says exactly whether a file has it.

* A message is absorbed block by block, and what is behind its last whole block waits for the bytes
  that follow (`BlockDigest.absorb_append`).  So a digest that is fed chunk by chunk always holds
  the message so far (`Feed.Holds`), wherever the chunks are cut, and the loop over the reads of a
  file ends with the digest of all that they give (`Feed.Holds.digestReads_eq`).
* The expected digest has the form of one kind or of none (`HasForm`), which decides what happens
  before the file is looked at.
* A digest is computed in small letters (`compute_hasForm`), so the comparison ignores the case of
  the expected one (`verify_of_read`).
* To check a file while it is read is to check what its reads give together (`verifyReads_eq`).

`verify_exact` puts this together.
-/

namespace SegmentedDownload

/-- What the reads of a file give together.  A read of nothing is the end of the file. -/
def gathered : List (Except IoError Bytes) → Except IoError Bytes
  | [] => .ok []
  | .error cause :: _ => .error cause
  | .ok chunk :: rest => if chunk.isEmpty then .ok [] else (gathered rest).map (chunk ++ ·)

/-- However a file is cut into pieces, the reads of them give all of it. -/
theorem gathered_pieces {chunks : List Bytes} (h : ∀ chunk ∈ chunks, chunk ≠ [])
    (rest : List (Except IoError Bytes)) :
    gathered (chunks.map .ok ++ .ok [] :: rest) = .ok chunks.flatten := by
  induction chunks with
  | nil => rfl
  | cons chunk chunks ih =>
    obtain ⟨hchunk, hchunks⟩ := List.forall_mem_cons.mp h
    have hnonempty : ¬ chunk.isEmpty = true := by simpa using hchunk
    rw [List.map_cons, List.cons_append, gathered, if_neg hnonempty, ih hchunks]
    rfl

namespace BlockDigest

variable {σ : Type} {d : BlockDigest σ} {state : σ} {f : Feed σ} {message : Bytes}

/-! ## Chunks -/

/-- A whole block in front is compressed first. -/
theorem absorb_of_full {data : Bytes} (h : 64 ≤ data.length) :
    d.absorb state data = d.absorb (d.compress state (data.take 64)) (data.drop 64) := by
  rw [absorb]
  exact if_pos (List.length_take_of_le h)

theorem absorb_of_short {data : Bytes} (h : data.length < 64) :
    d.absorb state data = (state, data) := by
  rw [absorb]
  refine if_neg ?_
  rw [List.length_take]
  omega

/-- What is behind the last whole block is absorbed with the bytes that follow it. -/
theorem absorb_append (state : σ) (front rest : Bytes) :
    d.absorb state (front ++ rest) =
      d.absorb (d.absorb state front).1 ((d.absorb state front).2 ++ rest) := by
  by_cases hfull : 64 ≤ front.length
  · have hboth : 64 ≤ (front ++ rest).length := by
      rw [List.length_append]
      omega
    rw [absorb_of_full hboth, absorb_of_full hfull, List.take_append_of_le_length hfull,
      List.drop_append_of_le_length hfull]
    exact absorb_append (d.compress state (front.take 64)) (front.drop 64) rest
  · rw [absorb_of_short (Nat.lt_of_not_le hfull)]
termination_by front.length
decreasing_by
  rw [List.length_drop]
  omega

/-- A digest is fed with a message: it has the state after the whole blocks, and the bytes behind
them. -/
structure Feed.Holds (d : BlockDigest σ) (f : Feed σ) (message : Bytes) : Prop where
  absorb_eq : d.absorb d.initial message = (f.state, f.pending)
  length_eq : f.length = message.length

theorem start_holds : d.start.Holds d [] :=
  ⟨absorb_of_short (Nat.zero_lt_succ 63), rfl⟩

/-- Each chunk makes the message longer, wherever its last block was cut. -/
theorem Feed.Holds.feed (h : f.Holds d message) (chunk : Bytes) :
    (d.feed f chunk).Holds d (message ++ chunk) := by
  refine ⟨?_, ?_⟩
  · rw [absorb_append, h.absorb_eq]
    rfl
  · rw [List.length_append, ← h.length_eq]
    rfl

theorem Feed.Holds.foldl (h : f.Holds d message) (chunks : List Bytes) :
    (chunks.foldl d.feed f).Holds d (message ++ chunks.flatten) := by
  induction chunks generalizing f message with
  | nil => simpa using h
  | cons chunk chunks ih =>
    rw [List.foldl_cons, List.flatten_cons, ← List.append_assoc]
    exact ih (h.feed chunk)

/-- A digest that holds a message ends as the digest of it. -/
theorem Feed.Holds.finish_eq (h : f.Holds d message) : d.finish f = d.digest message := by
  rw [finish, digest, absorb_append d.initial, h.absorb_eq, h.length_eq]

/-- The digest of a message does not depend on the chunks in which it arrives. -/
theorem digestChunks_eq (chunks : List Bytes) :
    d.digestChunks chunks = d.digest chunks.flatten :=
  (start_holds.foldl chunks).finish_eq

/-- Where the reads end, nothing follows the message. -/
theorem Feed.Holds.finish_read (h : f.Holds d message) : .ok (d.finish f) =
    (Except.ok [] : Except IoError Bytes).map fun rest => d.digest (message ++ rest) := by
  rw [h.finish_eq, Except.map, List.append_nil]

/-- The loop over the reads ends with the digest of all that they give, or with the fault of the
first one that fails. -/
theorem Feed.Holds.digestReads_eq (h : f.Holds d message) (reads : List (Except IoError Bytes)) :
    d.digestReads f reads = (gathered reads).map fun rest => d.digest (message ++ rest) := by
  induction reads generalizing f message with
  | nil => exact h.finish_read
  | cons read rest ih =>
    cases read with
    | error cause => rfl
    | ok chunk =>
      rw [digestReads, gathered]
      split
      · exact h.finish_read
      · rw [ih (h.feed chunk)]
        cases gathered rest with
        | error cause => rfl
        | ok behind => simp [Except.map]

end BlockDigest

namespace Digest

/-! ## The text of a digest -/

/-- Number of hexadecimal digits of a digest. -/
def width : Digest → Nat
  | md5 => 32
  | sha256 => 64

/-- A text that a digest of some kind may have, in letters of either case. -/
structure HasForm (kind : Digest) (text : String) : Prop where
  length_eq : text.length = kind.width
  isHex : ∀ c ∈ text.toList, isHex c = true

variable {kind : Digest} {text expected : String} {data : Bytes} {contents : Except IoError Bytes}

/-- A kind is found for the texts in the form of that kind. -/
theorem ofHex?_eq_some : ofHex? text = some kind ↔ kind.HasForm text := by
  unfold ofHex?
  constructor
  · intro h
    split at h
    · next hall =>
      refine ⟨?_, List.all_eq_true.mp hall⟩
      split at h
      · next hlength => exact Option.some.inj h ▸ hlength
      · next hlength => exact Option.some.inj h ▸ hlength
      · contradiction
    · contradiction
  · intro h
    rw [if_pos (List.all_eq_true.mpr h.isHex), h.length_eq]
    cases kind <;> rfl

theorem ofHex?_eq_none : ofHex? text = none ↔ ∀ kind : Digest, ¬ kind.HasForm text := by
  simp only [Option.eq_none_iff_forall_ne_some, ne_eq, ofHex?_eq_some]

theorem isHex_hexDigit : ∀ n < 16,
    isHex (Bytes.hexDigit n) = true ∧ (Bytes.hexDigit n).toLower = Bytes.hexDigit n := by
  decide

/-- A digest is written in hexadecimal digits, all of them small. -/
theorem isHex_of_mem_hex {c : Char} (h : c ∈ (Bytes.hex data).toList) :
    isHex c = true ∧ c.toLower = c := by
  rw [Bytes.hex, String.toList_ofList] at h
  obtain ⟨b, -, hc⟩ := List.mem_flatMap.mp h
  have hb : b.toNat < 256 := b.toNat_lt
  rcases List.mem_pair.mp hc with rfl | rfl
  · exact isHex_hexDigit (b.toNat / 16) (by omega)
  · exact isHex_hexDigit (b.toNat % 16) (by omega)

theorem length_hex (data : Bytes) : (Bytes.hex data).length = 2 * data.length := by
  rw [Bytes.hex, String.length_ofList, List.length_flatMap]
  simp [Nat.mul_comm]

/-- A digest is in small letters already. -/
theorem lower_hex (data : Bytes) : lower (Bytes.hex data) = Bytes.hex data := by
  rw [lower, List.map_congr_left fun c hc => (isHex_of_mem_hex hc).2, List.map_id',
    String.ofList_toList]

theorem length_littleBytes (w : UInt32) : (littleBytes w).length = 4 := Word.length_digits 4 _

theorem length_bigBytes (w : UInt32) : (bigBytes w).length = 4 := by
  rw [bigBytes, List.length_reverse, length_littleBytes]

/-- The digest of anything is written in the form of its kind, and in small letters. -/
theorem compute_hasForm (kind : Digest) (data : Bytes) :
    kind.HasForm (kind.compute data) ∧ lower (kind.compute data) = kind.compute data := by
  cases kind with
  | md5 =>
    refine ⟨⟨?_, fun c hc => (isHex_of_mem_hex hc).1⟩, lower_hex _⟩
    rw [compute, length_hex]
    simp [BlockDigest.digest, Md5.blocks, length_littleBytes, width]
  | sha256 =>
    refine ⟨⟨?_, fun c hc => (isHex_of_mem_hex hc).1⟩, lower_hex _⟩
    rw [compute, length_hex]
    simp [BlockDigest.digest, Sha256.blocks, length_bigBytes, width]

example : md5.compute (Bytes.ofText "abc") = "900150983cd24fb0d6963f7d28e17f72" := by
  decide +kernel

example : sha256.compute (Bytes.ofText "abc") =
    "ba7816bf8f01cfea414140de5dae2223b00361a396177a9cb410ff61f20015ad" := by
  decide +kernel

/-- The digest of a file is that of its contents, however they come out of the reads. -/
theorem computeReads_eq (kind : Digest) (reads : List (Except IoError Bytes)) :
    kind.computeReads reads = (gathered reads).map kind.compute := by
  cases kind with
  | md5 =>
    rw [computeReads, BlockDigest.start_holds.digestReads_eq]
    cases gathered reads <;> rfl
  | sha256 =>
    rw [computeReads, BlockDigest.start_holds.digestReads_eq]
    cases gathered reads <;> rfl

/-- A digest in chunks is that of the bytes of all chunks. -/
theorem computeChunks_eq (kind : Digest) (chunks : List Bytes) :
    kind.computeChunks chunks = kind.compute chunks.flatten := by
  cases kind with
  | md5 => rw [computeChunks, BlockDigest.digestChunks_eq, compute]
  | sha256 => rw [computeChunks, BlockDigest.digestChunks_eq, compute]

/-! ## The check -/

/-- A text that is no digest is refused before the file is looked at. -/
theorem verify_of_noForm (h : ∀ kind : Digest, ¬ kind.HasForm expected) :
    verify contents expected = .error (.config (.unsupportedHash expected)) := by
  rw [verify, ofHex?_eq_none.mpr h]

/-- A file that cannot be read fails the check with the cause. -/
theorem verify_of_unreadable (h : kind.HasForm expected) (cause : IoError) :
    verify (.error cause) expected = .error (.io cause) := by
  rw [verify, ofHex?_eq_some.mpr h]

/-- The case of letters does not count, as a digest has none but small ones. -/
theorem verify_of_read (h : kind.HasForm expected) (data : Bytes) :
    verify (.ok data) expected =
      if lower expected = lower (kind.compute data) then .ok ()
      else .error (.hashMismatch (lower expected) (kind.compute data)) := by
  rw [verify, ofHex?_eq_some.mpr h, (compute_hasForm kind data).2]
  simp only [eq_comm]

/-- A file passes only if it can be read and has the digest. -/
theorem verify_eq_ok : verify contents expected = .ok () ↔
    ∃ (data : Bytes) (kind : Digest), contents = .ok data ∧ kind.HasForm expected ∧
      lower expected = lower (kind.compute data) := by
  constructor
  · intro h
    by_cases hform : ∃ kind : Digest, kind.HasForm expected
    · obtain ⟨kind, hkind⟩ := hform
      cases contents with
      | error cause =>
        rw [verify_of_unreadable hkind] at h
        contradiction
      | ok data =>
        rw [verify_of_read hkind] at h
        split at h
        · next hsame => exact ⟨data, kind, rfl, hkind, hsame⟩
        · contradiction
    · rw [verify_of_noForm (not_exists.mp hform)] at h
      contradiction
  · rintro ⟨data, kind, rfl, hkind, hsame⟩
    rw [verify_of_read hkind, if_pos hsame]

/-- To check a file while it is read is to check what its reads give together. -/
theorem verifyReads_eq (opened : Except IoError (List (Except IoError Bytes)))
    (expected : String) : verifyReads opened expected = verify (opened.bind gathered) expected := by
  unfold verifyReads
  cases hkind : ofHex? expected with
  | none => exact (verify_of_noForm (ofHex?_eq_none.mp hkind)).symm
  | some kind =>
    have hform := ofHex?_eq_some.mp hkind
    have hactual : opened.bind kind.computeReads = (opened.bind gathered).map kind.compute := by
      cases opened with
      | error cause => rfl
      | ok reads => exact computeReads_eq kind reads
    dsimp only
    rw [hactual]
    cases opened.bind gathered with
    | error cause => exact (verify_of_unreadable hform cause).symm
    | ok data =>
      rw [verify_of_read hform]
      simp only [Except.map, eq_comm]

/-- A text in the form of a digest is never taken for a fault of the configuration. -/
theorem verify_ne_config (h : kind.HasForm expected) (cause : ConfigError) :
    verify contents expected ≠ .error (.config cause) := by
  cases contents with
  | error fault =>
    rw [verify_of_unreadable h]
    exact nofun
  | ok data =>
    rw [verify_of_read h]
    split <;> exact nofun

/-- The check and the validation of a configuration refuse the same texts. -/
theorem checkHash_eq_ok : Config.checkHash (some expected) = .ok () ↔
    ∀ cause, verify contents expected ≠ .error (.config cause) := by
  rw [Config.checkHash]
  by_cases hform : ∃ kind : Digest, kind.HasForm expected
  · obtain ⟨kind, hkind⟩ := hform
    rw [ofHex?_eq_some.mpr hkind]
    exact iff_of_true rfl (verify_ne_config hkind)
  · have hnone := not_exists.mp hform
    rw [ofHex?_eq_none.mpr hnone]
    exact iff_of_false nofun fun h => h _ (verify_of_noForm hnone)

/-- What the check of a file against an expected digest says in each case. -/
structure Answers (contents : Except IoError Bytes) (expected : String)
    (answer : Except DownloadError Unit) : Prop where
  /-- Only a file that can be read and has the digest passes. -/
  ok_iff : answer = .ok () ↔ ∃ (data : Bytes) (kind : Digest), contents = .ok data ∧
    kind.HasForm expected ∧ lower expected = lower (kind.compute data)
  /-- A text that is no digest is refused, whatever is known of the file. -/
  noForm : (∀ kind : Digest, ¬ kind.HasForm expected) →
    answer = .error (.config (.unsupportedHash expected))
  unreadable : ∀ (kind : Digest) (cause : IoError), kind.HasForm expected →
    contents = .error cause → answer = .error (.io cause)
  differs : ∀ (kind : Digest) (data : Bytes), kind.HasForm expected → contents = .ok data →
    lower expected ≠ lower (kind.compute data) →
      answer = .error (.hashMismatch (lower expected) (kind.compute data))

/-- The check answers as `Answers` says. -/
theorem verify_answers (contents : Except IoError Bytes) (expected : String) :
    Answers contents expected (verify contents expected) := by
  refine ⟨verify_eq_ok, verify_of_noForm, ?_, ?_⟩
  · rintro kind cause hkind rfl
    exact verify_of_unreadable hkind cause
  · rintro kind data hkind rfl hdiffers
    rw [verify_of_read hkind, if_neg hdiffers]

/-- A file in pieces is digested as a whole. -/
theorem computeReads_pieces {chunks : List Bytes} (h : ∀ chunk ∈ chunks, chunk ≠ [])
    (rest : List (Except IoError Bytes)) :
    kind.computeReads (chunks.map .ok ++ .ok [] :: rest) = .ok (kind.compute chunks.flatten) := by
  rw [computeReads_eq, gathered_pieces h]
  rfl

/-- **The check of a digest is exact.**  A file passes if and only if it can be read and the
expected text is a digest of its bytes, in letters of either case; otherwise the error tells what
was wrong, and a digest that differs is told in small letters.

To check a file while it is read gives the answer for what the reads give together, and the digest
of its pieces is that of the whole, wherever it is cut.  The check refuses the same texts as the
validation of a configuration. -/
theorem verify_exact (contents : Except IoError Bytes) (expected : String) :
    Answers contents expected (verify contents expected) ∧
      (∀ opened, verifyReads opened expected = verify (opened.bind gathered) expected) ∧
      (∀ (kind : Digest) (data : Bytes),
        kind.HasForm (kind.compute data) ∧ lower (kind.compute data) = kind.compute data) ∧
      (∀ (kind : Digest) (chunks : List Bytes),
        kind.computeChunks chunks = kind.compute chunks.flatten ∧
          ((∀ chunk ∈ chunks, chunk ≠ []) → ∀ rest,
            kind.computeReads (chunks.map .ok ++ .ok [] :: rest) =
              .ok (kind.compute chunks.flatten))) ∧
      (Config.checkHash (some expected) = .ok () ↔
        ∀ cause, verify contents expected ≠ .error (.config cause)) ∧
      ∀ c : Config, c.validate = .ok () → c.expectedHash? = some expected →
        ∀ cause, verify contents expected ≠ .error (.config cause) := by
  refine ⟨verify_answers contents expected, fun opened => verifyReads_eq opened expected,
    compute_hasForm, fun kind chunks => ⟨computeChunks_eq kind chunks, computeReads_pieces⟩,
    checkHash_eq_ok, ?_⟩
  intro c hvalid hexpected
  obtain ⟨-, -, -, -, hhash⟩ := Config.validate_ok hvalid
  rw [hexpected] at hhash
  exact checkHash_eq_ok.mp hhash

/-- Two blocks and a bit, in two pieces of which the first ends inside of a block. -/
def twoPieces : List Bytes := [List.replicate 63 97, List.replicate 67 97]

theorem twoPieces_exact :
    md5.HasForm "E016E4CCC7FDAEA56FC377600B58C4CB" ∧
      verify (.ok twoPieces.flatten) "E016E4CCC7FDAEA56FC377600B58C4CB" = .ok () ∧
      verifyReads (.ok (twoPieces.map .ok ++ [.ok []])) "E016E4CCC7FDAEA56FC377600B58C4CB" =
        .ok () ∧
      md5.computeReads (twoPieces.map .ok ++ [.ok []]) =
        .ok "e016e4ccc7fdaea56fc377600b58c4cb" ∧
      verify (.ok []) "E016E4CCC7FDAEA56FC377600B58C4CB" =
        .error (.hashMismatch "e016e4ccc7fdaea56fc377600b58c4cb"
          "d41d8cd98f00b204e9800998ecf8427e") ∧
      verify (.error .notFound) "E016E4CCC7FDAEA56FC377600B58C4CB" = .error (.io .notFound) ∧
      verify (.error .notFound) "E016" = .error (.config (.unsupportedHash "E016")) := by
  have hform : md5.HasForm "E016E4CCC7FDAEA56FC377600B58C4CB" :=
    ofHex?_eq_some.mp (by decide +kernel)
  have hlower : lower "E016E4CCC7FDAEA56FC377600B58C4CB" = "e016e4ccc7fdaea56fc377600b58c4cb" := by
    decide +kernel
  have hdigest : md5.compute twoPieces.flatten = "e016e4ccc7fdaea56fc377600b58c4cb" := by cbv
  have hempty : md5.compute [] = "d41d8cd98f00b204e9800998ecf8427e" := by decide +kernel
  have hshort : ∀ kind : Digest, ¬ kind.HasForm "E016" := by
    rintro kind ⟨hlength, -⟩
    cases kind <;> contradiction
  have hnonempty : ∀ chunk ∈ twoPieces, chunk ≠ [] := by decide
  obtain ⟨hanswers, hwhile, hforms, hpieces, -⟩ :=
    verify_exact (.ok twoPieces.flatten) "E016E4CCC7FDAEA56FC377600B58C4CB"
  have hpasses : verify (.ok twoPieces.flatten) "E016E4CCC7FDAEA56FC377600B58C4CB" = .ok () := by
    refine hanswers.ok_iff.mpr ⟨_, md5, rfl, hform, ?_⟩
    rw [(hforms md5 _).2, hdigest, hlower]
  refine ⟨hform, hpasses, ?_, ?_, ?_, ?_, ?_⟩
  · rw [hwhile, Except.bind, gathered_pieces hnonempty, hpasses]
  · rw [← hdigest]
    exact (hpieces md5 twoPieces).2 hnonempty []
  · have hdiffers := (verify_exact (.ok []) "E016E4CCC7FDAEA56FC377600B58C4CB").1.differs md5 []
      hform rfl
    rw [(hforms md5 _).2, hempty, hlower] at hdiffers
    exact hdiffers (by decide)
  · exact (verify_exact (.error .notFound) _).1.unreadable md5 .notFound hform rfl
  · exact (verify_exact (.error .notFound) _).1.noForm hshort

end Digest

end SegmentedDownload
