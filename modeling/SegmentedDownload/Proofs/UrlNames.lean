import SegmentedDownload.Proofs.Escapes
import SegmentedDownload.Proofs.FreeNames
import SegmentedDownload.Proofs.Medium

/-!
# SegmentedDownload.Proofs.UrlNames

The name that a download takes from its URL, and where it leads.

* A segment is cut out of the text of a URL before it is decoded. So it holds no slash
  and nothing that has to be encoded, and it is no dots (`UrlPath.IsSegment`), but all of
  these may come out of it.
* `Url.isComponent_fileName`: exactly then the name is not the name of one thing in a
  directory. Dots come through at one place only, behind a drive of a `file` URL.
* `Config.new_children`: with any other name, the files of a download are children of its
  directory.
-/

namespace SegmentedDownload

/-! ## Segments -/

namespace UrlPath

/-- A segment that a path takes for one or two dots. -/
def IsDots (segment : List Char) : Prop :=
  plainDots segment = ['.'] ∨ plainDots segment = ['.', '.']

instance (segment : List Char) : Decidable (IsDots segment) :=
  inferInstanceAs (Decidable (_ ∨ _))

/-- What is known of a segment of a URL. -/
structure IsSegment (kind : Kind) (segment : List Char) : Prop where
  plain : ∀ c ∈ segment, Percent.isPlain c = true
  no_slash : '/' ∉ segment
  no_dots : kind ≠ .file → ¬ IsDots segment

theorem isSegment_nil (kind : Kind) : IsSegment kind [] where
  plain := nofun
  no_slash := List.not_mem_nil
  no_dots _ := by decide

/-- An escape holds no slash. -/
theorem mem_encodeByte {b : UInt8} {c : Char} (h : c ∈ Percent.encodeByte b) :
    Percent.isPlain c = true ∧ c ≠ '/' := by
  have hb := b.toNat_lt
  simp only [Percent.encodeByte, List.mem_cons, List.not_mem_nil, or_false] at h
  rcases h with rfl | rfl | rfl
  · decide
  · obtain ⟨-, hplain, hslash, -⟩ := Percent.hexDigit_digit (b.toNat / 16) (by omega)
    exact ⟨hplain, hslash⟩
  · obtain ⟨-, hplain, hslash, -⟩ := Percent.hexDigit_digit (b.toNat % 16) (by omega)
    exact ⟨hplain, hslash⟩

/-- Escaping brings no slash that was not there. -/
theorem mem_encode {s : List Char} {c : Char} (h : c ∈ Percent.encode s) :
    Percent.isPlain c = true ∧ (c = '/' → '/' ∈ s) := by
  rw [Percent.encode, List.mem_flatMap] at h
  obtain ⟨d, hd, hc⟩ := h
  unfold Percent.encodeChar at hc
  split at hc
  · obtain rfl := List.mem_singleton.mp hc
    exact ⟨‹_›, fun heq => heq ▸ hd⟩
  · obtain ⟨b, -, hb⟩ := List.mem_flatMap.mp hc
    exact ⟨(mem_encodeByte hb).1, fun heq => absurd heq (mem_encodeByte hb).2⟩

/-- A part without a slash, once escaped, is a segment. -/
theorem isSegment_encode {kind : Kind} {s : List Char} (hslash : '/' ∉ s)
    (hdots : kind ≠ .file → ¬ IsDots s) : IsSegment kind (Percent.encode s) where
  plain _ hc := (mem_encode hc).1
  no_slash hc := hslash ((mem_encode hc).2 rfl)
  no_dots hkind h := hdots hkind (h.imp (plainDots_encode 1 s).mp (plainDots_encode 2 s).mp)

theorem isPlain_of_isAlpha {c : Char} (h : c.isAlpha) : Percent.isPlain c = true ∧ c ≠ '/' := by
  have hne : ∀ d ∈ ['"', '#', '<', '>', '?', '`', '{', '}', '/'], c ≠ d := by
    rintro d hd rfl
    simp only [List.mem_cons, List.not_mem_nil, or_false] at hd
    rcases hd with rfl | rfl | rfl | rfl | rfl | rfl | rfl | rfl | rfl <;>
      exact absurd h (by decide)
  have hrange : 0x21 ≤ c.toNat ∧ c.toNat ≤ 0x7e := by
    simp only [Char.isAlpha, Char.isUpper, Char.isLower, Bool.or_eq_true, Bool.and_eq_true,
      decide_eq_true_eq, UInt32.le_iff_toNat_le, ge_iff_le] at h
    change (65 ≤ c.toNat ∧ c.toNat ≤ 90) ∨ (97 ≤ c.toNat ∧ c.toNat ≤ 122) at h
    omega
  refine ⟨?_, hne '/' (by decide)⟩
  simp only [Percent.isPlain, decide_eq_true hrange, Bool.true_and, Bool.not_eq_true',
    List.contains_eq_mem, decide_eq_false_iff_not]
  exact fun hmem => hne c (List.mem_append_left ['/'] hmem) rfl

/-- The letter of a drive is a segment. -/
theorem isSegment_drive {segment : List Char} (h : isDrive segment = true) :
    IsSegment .file segment := by
  match segment with
  | [letter, mark] =>
    simp only [isDrive, Bool.and_eq_true, Bool.or_eq_true, beq_iff_eq] at h
    obtain ⟨hplain, hslash⟩ := isPlain_of_isAlpha h.1
    refine ⟨fun c hc => ?_, ?_, fun hkind => absurd rfl hkind⟩
    · simp only [List.mem_cons, List.not_mem_nil, or_false] at hc
      rcases hc with rfl | rfl
      · exact hplain
      · rcases h.2 with rfl | rfl <;> decide
    · intro hmem
      simp only [List.mem_cons, List.not_mem_nil, or_false] at hmem
      rcases hmem with heq | heq
      · exact hslash heq.symm
      · rcases h.2 with rfl | rfl <;> simp at heq

variable {kind : Kind} {segments : List (List Char)} {present : Present}

/-- What is known of the segment that is being read. -/
structure Present.IsOpen (kind : Kind) (present : Present) : Prop where
  no_slash : '/' ∉ present.text
  file : present.isBroken = true ∨ present.isLiteral = true → kind = .file
  drive : present.isBroken = true → isDrive present.text.reverse = true

/-- A part that is kept is a segment. -/
theorem keptSegment_isSegment {segment : List Char} (hslash : '/' ∉ segment)
    (hdots : ¬ IsDots segment) (first : Bool) :
    IsSegment kind (keptSegment kind first segment) := by
  unfold keptSegment
  split
  · split
    · rename_i letter h
      rw [h.1]
      exact isSegment_drive (by simp [isDrive, h.2.2])
    · exact isSegment_encode hslash fun _ => hdots
  · exact isSegment_encode hslash fun _ => hdots

/-- A part that is pushed leaves only segments. -/
theorem push_isSegment (h : ∀ s ∈ segments, IsSegment kind s) {segment : List Char}
    (hslash : '/' ∉ segment) (final : Bool) :
    ∀ s ∈ push kind segments segment final, IsSegment kind s := by
  have htail : ∀ s ∈ (if final then [[]] else [] : List (List Char)), IsSegment kind s := by
    intro s hs
    split at hs
    · rw [List.mem_singleton.mp hs]
      exact isSegment_nil kind
    · contradiction
  intro s hs
  unfold push at hs
  dsimp only at hs
  split at hs
  · exact (List.mem_append.mp hs).elim (h s) (htail s)
  · refine (List.mem_append.mp hs).elim (fun hmem => h s ?_) (htail s)
    unfold dropSegment at hmem
    split at hmem
    · exact hmem
    · exact List.dropLast_subset _ hmem
  · rename_i hdot hdots
    refine (List.mem_append.mp hs).elim (h s) fun hmem => ?_
    rw [List.mem_singleton.mp hmem]
    exact keptSegment_isSegment hslash (not_or.mpr ⟨hdot, hdots⟩) _

/-- So does the end of the present part. -/
theorem Present.close_isSegment (h : ∀ s ∈ segments, IsSegment kind s)
    (hpresent : present.IsOpen kind) (final : Bool) :
    ∀ s ∈ present.close kind segments final, IsSegment kind s := by
  have hslash : '/' ∉ present.text.reverse := fun hmem =>
    hpresent.no_slash (List.mem_reverse.mp hmem)
  unfold Present.close
  split
  · rename_i hliteral
    intro s hs
    refine (List.mem_append.mp hs).elim (h s) fun hmem => ?_
    rw [List.mem_singleton.mp hmem]
    exact isSegment_encode hslash fun hkind => absurd (hpresent.file (Or.inr hliteral)) hkind
  · exact push_isSegment h hslash final

/-- The reader of a path finds only segments. -/
theorem readFrom_isSegment (h : ∀ s ∈ segments, IsSegment kind s)
    (hpresent : present.IsOpen kind) (text : List Char) :
    ∀ s ∈ readFrom kind segments present text, IsSegment kind s := by
  fun_induction readFrom kind segments present text with
  | case1 segments present => exact Present.close_isSegment h hpresent true
  | case2 segments present c rest hskipped ih =>
    refine ih h ?_
    unfold Present.skip
    split
    · rename_i hdrive
      exact ⟨hpresent.no_slash, fun _ => hdrive.1, fun _ => hdrive.2.2.1⟩
    · exact hpresent
  | case3 segments present c rest hcounts hseparator ih =>
    exact ih (Present.close_isSegment h hpresent false) ⟨List.not_mem_nil, by simp, by simp⟩
  | case4 segments present c rest hcounts hinside hend =>
    exact Present.close_isSegment h hpresent true
  | case5 segments present c rest hcounts hinside hmore hbroken ih =>
    -- the drive is closed as it is, and what follows it is a segment of plain text
    have hkind := hpresent.file (Or.inl hbroken)
    have hc : c ≠ '/' := by
      rintro rfl
      simp [isSeparator] at hinside
    refine ih (fun s hs => ?_) ⟨by simpa using Ne.symm hc, fun _ => hkind, by simp⟩
    refine (List.mem_append.mp hs).elim (h s) fun hmem => ?_
    rw [List.mem_singleton.mp hmem, hkind]
    exact isSegment_drive (hpresent.drive hbroken)
  | case6 segments present c rest hcounts hinside hmore hbroken ih =>
    have hc : c ≠ '/' := by
      rintro rfl
      simp [isSeparator] at hinside
    refine ih h ⟨?_, hpresent.file, fun h => absurd h hbroken⟩
    rw [List.mem_cons, not_or]
    exact ⟨Ne.symm hc, hpresent.no_slash⟩

/-- No segment of a path holds a slash or what has to be encoded, and outside of files
none is dots. -/
theorem read_isSegment (kind : Kind) (text : List Char) :
    ∀ s ∈ read kind text, IsSegment kind s :=
  readFrom_isSegment (List.forall_mem_nil _) ⟨List.not_mem_nil, by simp, by simp⟩ text

end UrlPath

/-! ## The last segment -/

namespace Url

/-- The reader of the path of a file finds only segments, too. -/
theorem readFile_isSegment {s : List Char} {segments : List (List Char)}
    (h : readFile s = .ok segments) : ∀ s ∈ segments, UrlPath.IsSegment .file s := by
  -- every way out of the reader reads a path
  have hread : ∀ text, (.ok (UrlPath.read .file text) : Except UrlError _) = .ok segments →
      ∀ s ∈ segments, UrlPath.IsSegment .file s := by
    rintro text heq
    injection heq with heq
    exact heq ▸ UrlPath.read_isSegment .file text
  unfold readFile at h
  split at h
  · exact hread _ h
  · split at h
    · exact hread _ h
    · dsimp only at h
      split at h
      · exact hread _ h
      · obtain ⟨host, -, h⟩ := bind_eq_ok.mp h
        split at h
        · exact hread _ h
        · exact hread _ h

theorem webSegments_isSegment (kind : UrlPath.Kind) (s : List Char) :
    ∀ segment ∈ webSegments kind s, UrlPath.IsSegment kind segment := by
  cases s with
  | nil =>
    intro segment hmem
    rw [List.mem_singleton.mp hmem]
    exact UrlPath.isSegment_nil kind
  | cons c rest => exact UrlPath.read_isSegment kind _

theorem otherSegments_isSegment (s : List Char) :
    ∀ segment ∈ (otherSegments? s).getD [], UrlPath.IsSegment .other segment := by
  unfold otherSegments?
  split
  · exact UrlPath.read_isSegment .other _
  · split
    · exact List.forall_mem_nil _
    · exact UrlPath.read_isSegment .other _
  · exact List.forall_mem_nil _

/-- Whatever the scheme is, only segments are read. -/
theorem readSegments_isSegment {kind : UrlPath.Kind} {s : List Char}
    {segments? : Option (List (List Char))} (h : readSegments kind s = .ok segments?) :
    ∀ segment ∈ segments?.getD [], UrlPath.IsSegment kind segment := by
  unfold readSegments at h
  split at h
  · cases hfile : readFile s with
    | error e => simp [hfile, Except.map] at h
    | ok segments =>
      rw [hfile] at h
      injection h with h
      exact h ▸ readFile_isSegment hfile
  · obtain ⟨rest, -, h⟩ := bind_eq_ok.mp h
    injection h with h
    exact h ▸ webSegments_isSegment .web rest
  · split at h
    · obtain ⟨rest, -, h⟩ := bind_eq_ok.mp h
      injection h with h
      exact h ▸ otherSegments_isSegment rest
    · injection h with h
      exact h ▸ otherSegments_isSegment _
    · injection h with h
      exact h ▸ List.forall_mem_nil _

/-- The last segment that is not empty is a segment of the URL. -/
theorem lastSegment_isSegment {text : String} {segment : List Char}
    (h : lastSegment? text = some segment) : segment ≠ [] ∧
      ∃ url, ofText text = .ok url ∧ UrlPath.IsSegment (kind url.scheme) segment := by
  unfold lastSegment? at h
  split at h
  · contradiction
  · rename_i url hurl
    obtain ⟨hmem, hne⟩ := List.mem_filter.mp (List.mem_of_getLast? h)
    refine ⟨by simpa using hne, url, hurl, ?_⟩
    unfold ofText at hurl
    split at hurl
    · contradiction
    · obtain ⟨segments?, hsegments, hurl⟩ := bind_eq_ok.mp hurl
      injection hurl with hurl
      subst hurl
      exact readSegments_isSegment hsegments segment hmem

/-! ## The name -/

theorem kind_eq_file {scheme : String} : kind scheme = .file ↔ scheme = "file" := by
  unfold kind
  split
  · simp [*]
  · split <;> simp [*]

/-- Decoding brings a slash or a NUL into a segment. -/
def Escapes (segment : List Char) : Prop :=
  (Percent.decodeText? segment).isSome = true ∧
    (['%', '2', 'F'] <:+: segment ∨ ['%', '2', 'f'] <:+: segment ∨ ['%', '0', '0'] <:+: segment)

end Url

/-- A name of one thing in a directory. -/
structure IsComponent (name : String) : Prop where
  ne_empty : name ≠ ""
  no_slash : '/' ∉ name.toList
  no_nul : '\x00' ∉ name.toList
  ne_dot : name ≠ "."
  ne_dots : name ≠ ".."

namespace Url

/-- A segment gives its decoded text, or itself if that is no text. -/
theorem segmentName_cases (segment : List Char) :
    (Percent.decodeText? segment = none ∧ segmentName segment = String.ofList segment) ∨
      Percent.decodeText? segment = some (segmentName segment) ∧
        Bytes.ofChars (segmentName segment).toList = Percent.decode (Bytes.ofChars segment) := by
  unfold segmentName
  cases h : Percent.decodeText? segment with
  | none => exact Or.inl ⟨rfl, rfl⟩
  | some text =>
    refine Or.inr ⟨rfl, ?_⟩
    rw [Percent.decodeText?, Bytes.ofText_ofList] at h
    rw [Option.getD_some, ← Bytes.ofText_eq, Bytes.toText?_eq_some h]

variable {kind : UrlPath.Kind} {segment : List Char}

/-- A segment that is not empty gives a name. -/
theorem segmentName_ne_empty (h : segment ≠ []) : segmentName segment ≠ "" := by
  rw [Ne, ← String.toList_eq_nil_iff]
  rcases segmentName_cases segment with ⟨-, hname⟩ | ⟨-, hname⟩
  · rwa [hname, String.toList_ofList]
  · intro hempty
    rw [hempty, Bytes.ofChars_nil, eq_comm, Percent.decode_eq_nil, Bytes.ofChars_eq_nil] at hname
    exact h hname

/-- A slash comes into a name by its escape only. -/
theorem slash_mem_segmentName (h : UrlPath.IsSegment kind segment) :
    '/' ∈ (segmentName segment).toList ↔ (Percent.decodeText? segment).isSome = true ∧
      (['%', '2', 'F'] <:+: segment ∨ ['%', '2', 'f'] <:+: segment) := by
  rcases segmentName_cases segment with ⟨hnone, hname⟩ | ⟨hsome, hname⟩
  · simp [hnone, hname, h.no_slash]
  · have hascii : ∀ c ∈ segment, c.toNat < 128 := fun c hc => Percent.lt_of_isPlain (h.plain c hc)
    rw [← Bytes.ofAscii_mem_ofChars (by decide), hname, hsome]
    simp only [Option.isSome_some, true_and]
    exact Percent.slash_mem_decode hascii h.no_slash

/-- A NUL character comes in by its escape only, too. -/
theorem nul_mem_segmentName (h : UrlPath.IsSegment kind segment) :
    '\x00' ∈ (segmentName segment).toList ↔ (Percent.decodeText? segment).isSome = true ∧
      ['%', '0', '0'] <:+: segment := by
  have hnul : '\x00' ∉ segment := fun hmem => absurd (h.plain _ hmem) (by decide)
  rcases segmentName_cases segment with ⟨hnone, hname⟩ | ⟨hsome, hname⟩
  · simp [hnone, hname, hnul]
  · have hascii : ∀ c ∈ segment, c.toNat < 128 := fun c hc => Percent.lt_of_isPlain (h.plain c hc)
    rw [← Bytes.ofAscii_mem_ofChars (by decide), hname, hsome]
    simp only [Option.isSome_some, true_and]
    exact Percent.nul_mem_decode hascii hnul

theorem ofChars_dots (n : Nat) :
    Bytes.ofChars (List.replicate n '.') = List.replicate n 46 := by
  rw [Bytes.ofChars_ascii fun c hc => by rw [List.eq_of_mem_replicate hc]; decide,
    List.map_replicate]
  rfl

/-- A name is dots if and only if its segment is read as dots. -/
theorem segmentName_eq_dots (n : Nat) (segment : List Char) :
    segmentName segment = String.ofList (List.replicate n '.') ↔
      UrlPath.plainDots segment = List.replicate n '.' := by
  constructor
  · intro hdots
    rcases segmentName_cases segment with ⟨-, hname⟩ | ⟨-, hname⟩
    · rw [hdots, String.ofList_inj] at hname
      rw [← hname, UrlPath.plainDots_replicate]
    · rwa [hdots, String.toList_ofList, ofChars_dots, eq_comm,
        ← UrlPath.plainDots_eq_replicate] at hname
  · intro hdots
    rw [segmentName, Percent.decodeText?, Bytes.ofText_ofList,
      (UrlPath.plainDots_eq_replicate n segment).mp hdots, ← ofChars_dots, ← Bytes.ofText_ofList,
      Bytes.toText?_ofText]
    rfl

/-- A segment gives a name of one file, unless it is dots or escapes something. -/
theorem isComponent_segmentName (h : UrlPath.IsSegment kind segment) (hne : segment ≠ []) :
    IsComponent (segmentName segment) ↔ ¬ Escapes segment ∧ ¬ UrlPath.IsDots segment := by
  have hdot := segmentName_eq_dots 1 segment
  have hdots := segmentName_eq_dots 2 segment
  have hslash := slash_mem_segmentName h
  have hnul := nul_mem_segmentName h
  constructor
  · intro hname
    refine ⟨fun ⟨hsome, hhidden⟩ => ?_, fun hdotted => ?_⟩
    · rcases hhidden with hlarge | hsmall | hzero
      · exact hname.no_slash (hslash.mpr ⟨hsome, Or.inl hlarge⟩)
      · exact hname.no_slash (hslash.mpr ⟨hsome, Or.inr hsmall⟩)
      · exact hname.no_nul (hnul.mpr ⟨hsome, hzero⟩)
    · rcases hdotted with hone | htwo
      · exact hname.ne_dot (hdot.mpr hone)
      · exact hname.ne_dots (hdots.mpr htwo)
  · rintro ⟨hescapes, hdotted⟩
    refine ⟨segmentName_ne_empty hne, fun hmem => ?_, fun hmem => ?_,
      fun heq => hdotted (Or.inl (hdot.mp heq)), fun heq => hdotted (Or.inr (hdots.mp heq))⟩
    · obtain ⟨hsome, hlarge | hsmall⟩ := hslash.mp hmem
      · exact hescapes ⟨hsome, Or.inl hlarge⟩
      · exact hescapes ⟨hsome, Or.inr (Or.inl hsmall)⟩
    · obtain ⟨hsome, hzero⟩ := hnul.mp hmem
      exact hescapes ⟨hsome, Or.inr (Or.inr hzero)⟩

/-- The name is one name exactly if decoding the last segment brings no slash or NUL into
it and the path did not keep dots there. -/
theorem isComponent_fileName (url : String) :
    IsComponent (fileName url) ↔ ∀ segment, lastSegment? url = some segment →
      ¬ Escapes segment ∧ ¬ UrlPath.IsDots segment := by
  unfold fileName
  split
  · rename_i segment hlast
    obtain ⟨hne, parsed, -, hsegment⟩ := lastSegment_isSegment hlast
    rw [isComponent_segmentName hsegment hne]
    exact ⟨fun h s hs => Option.some.inj (hlast.symm.trans hs) ▸ h, fun h => h segment hlast⟩
  · rename_i hnone
    refine iff_of_true ?_ fun segment hsegment => ?_
    · constructor <;> decide
    · rw [hnone] at hsegment
      contradiction

theorem fileName_ne_empty (url : String) : fileName url ≠ "" := by
  unfold fileName
  split
  · rename_i segment hlast
    exact segmentName_ne_empty (lastSegment_isSegment hlast).1
  · decide

end Url

/-! ## The paths of a download -/

namespace Naming

/-- A path that leads to a thing in a directory. -/
def IsChild (directory path : String) : Prop :=
  ∃ name, IsComponent name ∧ path = join directory name

/-- It leads to a place right in a directory, if anywhere. -/
theorem IsChild.locate {directory path : String} (h : IsChild directory path) {fs : FileSystem}
    {place : Place} (hplace : fs.locate path = .ok place) :
    ∃ above name, place = above ++ [name] ∧ fs.node? above = some .directory := by
  obtain ⟨name, hname, rfl⟩ := h
  obtain ⟨front, above, hlocate⟩ := locate_join directory
  obtain ⟨-, d, -, hnode, -, rfl⟩ := (hlocate fs name place hname.no_slash).2.mp hplace
  refine ⟨d, name, ?_, hnode⟩
  rw [FileSystem.enter, if_neg (not_or.mpr ⟨hname.ne_empty, hname.ne_dot⟩), if_neg hname.ne_dots]

/-- A name with a character other than a point is not dots. -/
theorem isComponent_of_mem {name : String} {c : Char} (hslash : '/' ∉ name.toList)
    (hnul : '\x00' ∉ name.toList) (hc : c ≠ '.') (hmem : c ∈ name.toList) :
    IsComponent name := by
  have hne : ∀ other : String, c ∉ other.toList → name ≠ other := by
    rintro other hnone rfl
    exact hnone hmem
  exact ⟨hne "" (by simp), hslash, hnul, hne "." (by simpa using hc), hne ".." (by simpa using hc)⟩

variable {c : Config}

/-- A partial file has a name of one file. -/
theorem isComponent_partial (h : IsComponent c.fileName) (size? : Option Int) (n : Nat) :
    IsComponent (candidate (partialStem c size?) partialExtension n) := by
  refine isComponent_of_mem (c := 'p') (partial_no_slash h.no_slash size? n) ?_ (by decide) ?_
  · intro hmem
    rcases mem_candidate hmem with hmem | hmem
    · rw [partialStem_eq] at hmem
      simp only [String.toList_append, List.mem_append] at hmem
      rcases hmem with ((hmem | hmem) | hmem) | hmem
      · exact h.no_nul hmem
      · simp at hmem
      · rcases mem_intRepr hmem with heq | heq <;> simp at heq
      · simp [partialExtension] at hmem
    · rcases hmem with heq | heq | heq <;> simp at heq
  · rw [candidate_eq, String.toList_append]
    exact List.mem_append_right _ (by decide)

/-- So has the finished file, whatever its number is. -/
theorem isComponent_destination (h : IsComponent c.fileName) (n : Nat) :
    IsComponent (candidate c.baseName c.extension n) := by
  by_cases hn : n = 0
  · rw [candidate, if_pos hn]
    exact h
  · refine isComponent_of_mem (c := '(') (destination_no_slash h.no_slash n) ?_ (by decide) ?_
    · intro hmem
      rcases mem_candidate hmem with hmem | hmem
      · exact h.no_nul hmem
      · rcases hmem with heq | heq | heq <;> simp at heq
    · simp [candidate_eq, numbering, hn]

/-- So the partial file is in the directory of the download. -/
theorem partialPath_isChild (h : IsComponent c.fileName) (fs : FileSystem) (size? : Option Int)
    (resume : Bool) : IsChild c.directory (partialPath fs c size? resume) := by
  obtain ⟨n, heq⟩ := partialPath_eq fs c size? resume
  exact ⟨_, isComponent_partial h size? n, heq⟩

/-- And so is the finished file. -/
theorem destination_isChild (h : IsComponent c.fileName) (fs : FileSystem) :
    IsChild c.directory (destination fs c) := by
  obtain ⟨n, -, heq⟩ := freeFrom_eq fs (fun n =>
    join c.directory (candidate c.baseName c.extension n)) lastNumber 0
  exact ⟨_, isComponent_destination h n, heq⟩

end Naming

namespace Config

theorem splitName_append (name : String) : (splitName name).1 ++ (splitName name).2 = name := by
  unfold splitName
  dsimp only
  split
  · rw [← String.ofList_append, List.take_append_drop, String.ofList_toList]
  · exact String.append_empty

/-- A new configuration has the file name of its URL. -/
theorem new_fileName (url directory : String) :
    (new url directory).fileName = Url.fileName url := by
  have happend := splitName_append (Url.fileName url)
  unfold new fileName
  generalize splitName (Url.fileName url) = parts at happend
  exact happend

/-- A download named after its URL stays in its directory, unless the last segment of the
URL hides a slash, a NUL or dots: the text of a segment is decoded after it was cut out.

The path of a thing in the directory leads to a place right in a directory, if anywhere. -/
theorem new_children (url directory : String) :
    Url.fileName url ≠ "" ∧
      (IsComponent (Url.fileName url) ↔ ∀ segment, Url.lastSegment? url = some segment →
        ¬ Url.Escapes segment ∧ ¬ UrlPath.IsDots segment) ∧
      (∀ segment, Url.lastSegment? url = some segment → UrlPath.IsDots segment →
        ∃ parsed, Url.ofText url = .ok parsed ∧ parsed.scheme = "file") ∧
      (IsComponent (Url.fileName url) → ∀ (fs : FileSystem) (size? : Option Int) (resume : Bool),
        Naming.IsChild directory (Naming.partialPath fs (new url directory) size? resume) ∧
          Naming.IsChild directory (Naming.destination fs (new url directory))) ∧
      ∀ (fs : FileSystem) (path : String) (place : Place), Naming.IsChild directory path →
        fs.locate path = .ok place →
          ∃ above name, place = above ++ [name] ∧ fs.node? above = some .directory := by
  refine ⟨Url.fileName_ne_empty url, Url.isComponent_fileName url, ?_, ?_,
    fun _ _ _ hchild => hchild.locate⟩
  · intro segment hlast hdots
    obtain ⟨-, parsed, hparsed, hsegment⟩ := Url.lastSegment_isSegment hlast
    refine ⟨parsed, hparsed, ?_⟩
    by_contra hscheme
    exact hsegment.no_dots (mt Url.kind_eq_file.mp hscheme) hdots
  · intro hname fs size? resume
    rw [← new_fileName url directory] at hname
    exact ⟨Naming.partialPath_isChild hname fs size? resume, Naming.destination_isChild hname fs⟩

/-- A blank in a name does no harm. -/
theorem encodedBlank_children :
    IsComponent (Url.fileName "http://h/x/a%20b.bin") ∧
      Naming.IsChild "d" (Naming.partialPath {} (new "http://h/x/a%20b.bin" "d") (some 7) true) ∧
      Naming.IsChild "d" (Naming.destination {} (new "http://h/x/a%20b.bin" "d")) := by
  obtain ⟨-, hiff, -, hchildren, -⟩ := new_children "http://h/x/a%20b.bin" "d"
  have hlast : Url.lastSegment? "http://h/x/a%20b.bin" = some "a%20b.bin".toList := by
    decide +kernel
  have hname : IsComponent (Url.fileName "http://h/x/a%20b.bin") := by
    rw [hiff, hlast]
    rintro segment ⟨⟩
    refine ⟨fun ⟨_, hhidden⟩ => ?_, by decide +kernel⟩
    revert hhidden
    decide +kernel
  exact ⟨hname, hchildren hname {} (some 7) true⟩

/-- An encoded slash leads out of the directory: the path of the finished file is that of
a file above it. -/
theorem encodedSlash_escapes :
    Url.fileName "http://h/..%2Fa.b" = "../a.b" ∧
      ¬ IsComponent (Url.fileName "http://h/..%2Fa.b") ∧
      ¬ Naming.IsChild "d" (Naming.destination { entries := [(["d"], .directory)] }
        (new "http://h/..%2Fa.b" "d")) ∧
      ({ entries := [(["d"], .directory)] } : FileSystem).locate
        (Naming.destination { entries := [(["d"], .directory)] }
          (new "http://h/..%2Fa.b" "d")) = .ok ["a.b"] := by
  have hname : Url.fileName "http://h/..%2Fa.b" = "../a.b" := by decide +kernel
  have hpath : Naming.destination { entries := [(["d"], .directory)] }
      (new "http://h/..%2Fa.b" "d") = "d/../a.b" := by
    decide +kernel
  refine ⟨hname, fun h => ?_, ?_, ?_⟩
  · rw [hname] at h
    exact h.no_slash (by decide)
  · rw [hpath]
    rintro ⟨name, hcomponent, heq⟩
    refine hcomponent.no_slash ?_
    unfold Naming.join at heq
    split at heq
    · rw [← heq]
      decide
    · have hlist := congrArg String.toList heq
      rw [if_neg (by decide), String.toList_append, String.toList_append] at hlist
      have hname : "../a.b".toList = name.toList :=
        List.append_cancel_left (show ['d', '/'] ++ "../a.b".toList = _ from hlist)
      rw [← hname]
      decide
  · rw [hpath]
    decide +kernel

end Config

end SegmentedDownload
