import SegmentedDownload.Naming
import SegmentedDownload.Proofs.Paths

/-!
# SegmentedDownload.Proofs.FreeNames

The names that a download uses in its directory.

* `join_eq`: a path made of the directory and a name leads through the directory, and
  ends in the name.
* No name of the finished file is longer than that of the partial file, so the destination
  can be located if the partial file can (`locateFile_destination`).
* Numbers bring no point to a name (`points_candidate`).
* `freeFrom_first`: the destination is the first name that is free.
-/

namespace SegmentedDownload.Naming

open FileSystem

/-! ## Joining -/

/-- Names in a directory differ in their last part only. -/
theorem join_eq (directory : String) :
    ∃ front above, ∀ name : String, '/' ∉ name.toList →
      join directory name = front ++ name ∧ names (front ++ name) = above ++ [name] := by
  have hhead : ∀ name : String, '/' ∉ name.toList → name.toList.head? ≠ some '/' :=
    fun name hname hhead => hname (List.mem_of_head? hhead)
  have hsplit : ∀ (front : List Char) (name : String), '/' ∉ name.toList →
      (front ++ '/' :: name.toList).splitOn '/' = front.splitOn '/' ++ [name.toList] := by
    intro front name hname
    rw [List.splitOn_append_cons_self, List.splitOn_eq_singleton hname]
  by_cases hslash : directory.toList.getLast?.all (· = '/') = true
  · -- the directory is empty, or ends with a slash
    have hjoin : ∀ name : String, '/' ∉ name.toList → join directory name = directory ++ name := by
      intro name hname
      rw [join, if_neg (hhead name hname), if_pos hslash]
    rcases List.eq_nil_or_concat directory.toList with hnil | ⟨front, last, hdirectory⟩
    · refine ⟨directory, [], fun name hname => ⟨hjoin name hname, ?_⟩⟩
      rw [names, String.toList_append, hnil, List.nil_append, List.splitOn_eq_singleton hname]
      simp
    · have hlast : last = '/' := by simpa [hdirectory] using hslash
      refine ⟨directory, (front.splitOn '/').map String.ofList, fun name hname =>
        ⟨hjoin name hname, ?_⟩⟩
      have hlist : (directory ++ name).toList = front ++ '/' :: name.toList := by
        rw [String.toList_append, hdirectory, hlast]
        simp
      rw [names, hlist, hsplit front name hname]
      simp
  · refine ⟨directory ++ "/", (directory.toList.splitOn '/').map String.ofList, fun name hname =>
      ⟨?_, ?_⟩⟩
    · rw [join, if_neg (hhead name hname), if_neg hslash]
    · have hlist : (directory ++ "/" ++ name).toList = directory.toList ++ '/' :: name.toList := by
        simp [String.toList_append]
      rw [names, hlist, hsplit _ name hname]
      simp

/-- A path is followed if it is not empty, not too long and without a NUL character. -/
theorem checkPath_eq_ok {path : String} :
    checkPath path = .ok () ↔
      '\x00' ∉ path.toList ∧ path ≠ "" ∧ path.utf8ByteSize ≤ 4095 := by
  unfold checkPath
  by_cases hnul : '\x00' ∈ path.toList
  · simp [hnul]
  · by_cases hempty : path = ""
    · simp [hempty]
    · by_cases hsize : 4095 < path.utf8ByteSize
      · simp [hnul, hempty, hsize]
      · simp [hnul, hempty, hsize, Nat.le_of_not_lt hsize]

/-! ## Numbers in names -/

/-- What stands between the parts of the `n`-th name. -/
def numbering (n : Nat) : String := if n = 0 then "" else "(" ++ n.repr ++ ")"

theorem candidate_eq (base extension : String) (n : Nat) :
    candidate base extension n = base ++ numbering n ++ extension := by
  unfold candidate numbering
  split
  · simp
  · simp [toString, String.append_assoc]

theorem isDigit_of_mem_repr {n : Nat} {c : Char} (h : c ∈ n.repr.toList) : c.isDigit := by
  rw [Nat.toList_repr] at h
  exact Nat.isDigit_of_mem_toDigits (by decide) (by decide) h

/-- A number in a name is made of digits and brackets. -/
theorem mem_numbering {n : Nat} {c : Char} (h : c ∈ (numbering n).toList) :
    c = '(' ∨ c = ')' ∨ c.isDigit := by
  unfold numbering at h
  split at h
  · simp at h
  · simp only [String.toList_append, List.mem_append] at h
    rcases h with (h | h) | h
    · exact Or.inl (by simpa using h)
    · exact Or.inr (Or.inr (isDigit_of_mem_repr h))
    · exact Or.inr (Or.inl (by simpa using h))

/-- A number takes a byte for each of its digits. -/
theorem utf8ByteSize_repr (n : Nat) : n.repr.utf8ByteSize = n.repr.length := by
  have hdigit : ∀ k < 10, (Nat.digitChar k).utf8Size = 1 := by decide
  induction n using Nat.strongRecOn with
  | ind n ih =>
    by_cases hn : n < 10
    · rw [Nat.repr_of_lt hn, String.utf8ByteSize_singleton, String.length_singleton, hdigit n hn]
    · rw [Nat.repr_of_ge (Nat.le_of_not_lt hn), String.utf8ByteSize_append, ih (n / 10) (by omega),
        String.utf8ByteSize_singleton, hdigit _ (Nat.mod_lt n (by decide)), String.length_append,
        String.length_singleton]

/-- The numbers that are tried take at most seven bytes. -/
theorem utf8ByteSize_numbering {n : Nat} (h : n ≤ lastNumber) :
    (numbering n).utf8ByteSize ≤ 7 := by
  unfold numbering
  split
  · decide
  · have hlength : n.repr.length ≤ 5 :=
      (Nat.length_repr_le_iff (by decide)).mpr (Nat.lt_of_le_of_lt h (by decide))
    have hopen : ("(" : String).utf8ByteSize = 1 := by decide
    have hclose : (")" : String).utf8ByteSize = 1 := by decide
    rw [String.utf8ByteSize_append, String.utf8ByteSize_append, utf8ByteSize_repr, hopen, hclose]
    omega

/-- A size in a name is made of digits and a sign. -/
theorem mem_intRepr {i : Int} {c : Char} (h : c ∈ i.repr.toList) : c = '-' ∨ c.isDigit := by
  cases i with
  | ofNat n => exact Or.inr (isDigit_of_mem_repr h)
  | negSucc n =>
    have hrepr : (Int.negSucc n).repr = "-" ++ (n + 1).repr := rfl
    rw [hrepr, String.toList_append, List.mem_append] at h
    rcases h with h | h
    · exact Or.inl (by simpa using h)
    · exact Or.inr (isDigit_of_mem_repr h)

theorem intRepr_ne_empty (i : Int) : i.repr ≠ "" := by
  cases i with
  | ofNat n => exact Nat.repr_ne_empty
  | negSucc n =>
    have hrepr : (Int.negSucc n).repr = "-" ++ (n + 1).repr := rfl
    intro hempty
    rw [hrepr, ← String.toList_inj, String.toList_append] at hempty
    simp at hempty

/-! ## The names of a download -/

/-- Number of points in a name. -/
def points (name : String) : Nat := name.toList.count '.'

@[simp] theorem points_append (a b : String) : points (a ++ b) = points a + points b := by
  simp [points]

theorem points_eq_zero {name : String} (h : '.' ∉ name.toList) : points name = 0 :=
  List.count_eq_zero.mpr h

@[simp] theorem points_numbering (n : Nat) : points (numbering n) = 0 :=
  points_eq_zero fun hmem => by rcases mem_numbering hmem with h | h | h <;> simp at h

@[simp] theorem points_intRepr (i : Int) : points i.repr = 0 :=
  points_eq_zero fun hmem => by rcases mem_intRepr hmem with h | h <;> simp at h

/-- A number in parentheses brings no point. -/
theorem points_candidate (base extension : String) (n : Nat) :
    points (candidate base extension n) = points base + points extension := by
  rw [candidate_eq, points_append, points_append, points_numbering, Nat.add_zero]

/-- A number brings no other characters into a name. -/
theorem mem_candidate {base extension : String} {n : Nat} {c : Char} :
    c ∈ (candidate base extension n).toList →
      c ∈ (base ++ extension).toList ∨ c = '(' ∨ c = ')' ∨ c.isDigit := by
  rw [candidate_eq]
  simp only [String.toList_append, List.mem_append]
  rintro ((h | h) | h)
  · exact Or.inl (Or.inl h)
  · exact Or.inr (mem_numbering h)
  · exact Or.inl (Or.inr h)

variable {c : Config} {size? : Option Int}

theorem partialStem_eq (c : Config) (size? : Option Int) :
    partialStem c size? = c.fileName ++ "." ++ (size?.getD 0).repr := by
  simp [partialStem, toString]

/-- A partial file has no slash in its name if the finished file has none. -/
theorem partial_no_slash (h : '/' ∉ c.fileName.toList) (size? : Option Int) (n : Nat) :
    '/' ∉ (candidate (partialStem c size?) partialExtension n).toList := by
  intro hmem
  rcases mem_candidate hmem with hmem | hmem
  · rw [partialStem_eq] at hmem
    simp only [String.toList_append, List.mem_append] at hmem
    rcases hmem with ((hmem | hmem) | hmem) | hmem
    · exact h hmem
    · simp at hmem
    · rcases mem_intRepr hmem with h | h <;> simp at h
    · simp [partialExtension] at hmem
  · rcases hmem with h | h | h <;> simp at h

theorem destination_no_slash (h : '/' ∉ c.fileName.toList) (n : Nat) :
    '/' ∉ (candidate c.baseName c.extension n).toList := by
  intro hmem
  rcases mem_candidate hmem with hmem | hmem
  · exact h hmem
  · rcases hmem with h | h | h <;> simp at h

/-- No name of the finished file takes more bytes than one of the partial file. -/
theorem utf8ByteSize_destination_le (c : Config) (size? : Option Int) {n : Nat}
    (hn : n ≤ lastNumber) (m : Nat) :
    (candidate c.baseName c.extension n).utf8ByteSize ≤
      (candidate (partialStem c size?) partialExtension m).utf8ByteSize := by
  have hnumber := utf8ByteSize_numbering hn
  have hpositive : 1 ≤ (size?.getD 0).repr.utf8ByteSize := by
    rw [Nat.one_le_iff_ne_zero, Ne, String.utf8ByteSize_eq_zero_iff]
    exact intRepr_ne_empty _
  have hpoint : (".": String).utf8ByteSize = 1 := by decide
  have hpart : partialExtension.utf8ByteSize = 5 := by decide
  rw [candidate_eq, candidate_eq, partialStem_eq, Config.fileName]
  simp only [String.utf8ByteSize_append, hpoint, hpart]
  omega

/-! ## Their places -/

variable {fs : FileSystem} {place q : Place}

/-- A path of a directory is a name in the place of the directory. -/
theorem locate_join (directory : String) :
    ∃ front above, ∀ (fs : FileSystem) (name : String) (q : Place), '/' ∉ name.toList →
      join directory name = front ++ name ∧
      (fs.locate (join directory name) = .ok q ↔ checkPath (front ++ name) = .ok () ∧
        ∃ d, fs.walk [] above = .ok d ∧ fs.node? d = some .directory ∧
          name.utf8ByteSize ≤ 255 ∧ q = enter d name) := by
  obtain ⟨front, above, hjoin⟩ := join_eq directory
  refine ⟨front, above, fun fs name q hname => ?_⟩
  obtain ⟨heq, hnames⟩ := hjoin name hname
  refine ⟨heq, ?_⟩
  rw [heq, locate_eq_ok, hnames, walk_append]
  refine and_congr_right fun _ => exists_congr fun d => and_congr_right fun _ => ?_
  rw [walk_cons, walk, Except.ok.injEq]
  exact and_congr_right fun _ => and_congr_right fun _ => eq_comm

/-- If the partial file can be located, so can the finished one. -/
theorem locateFile_destination (hslash : '/' ∉ c.fileName.toList)
    (hnul : '\x00' ∉ c.fileName.toList) (hbase : c.baseName ≠ "") {n m : Nat}
    (hn : n ≤ lastNumber)
    (hpartial : fs.locate
      (join c.directory (candidate (partialStem c size?) partialExtension m)) = .ok place)
    (cause : IoError) :
    ∃ q, fs.locateFile (join c.directory (candidate c.baseName c.extension n)) cause = .ok q := by
  obtain ⟨front, above, hlocate⟩ := locate_join c.directory
  obtain ⟨hcheck, d, hwalk, hdirectory, hsize, -⟩ :=
    (hlocate fs _ _ (partial_no_slash hslash size? m)).2.mp hpartial
  obtain ⟨hnulPath, -, hsizePath⟩ := checkPath_eq_ok.mp hcheck
  have hle := utf8ByteSize_destination_le c size? hn m
  have hnoslash := destination_no_slash hslash n
  have hne : candidate c.baseName c.extension n ≠ "" := by
    intro hempty
    have hzero := String.utf8ByteSize_eq_zero_iff.mpr hempty
    rw [candidate_eq, String.utf8ByteSize_append, String.utf8ByteSize_append] at hzero
    exact hbase (String.utf8ByteSize_eq_zero_iff.mp (by omega))
  have hcheck' : checkPath (front ++ candidate c.baseName c.extension n) = .ok () := by
    rw [checkPath_eq_ok]
    refine ⟨?_, ?_, ?_⟩
    · rw [String.toList_append, List.mem_append]
      rintro (hmem | hmem)
      · exact hnulPath (by rw [String.toList_append]; exact List.mem_append_left _ hmem)
      · rcases mem_candidate hmem with hmem | hmem
        · exact hnul hmem
        · rcases hmem with h | h | h <;> simp at h
    · intro hempty
      have hzero := String.utf8ByteSize_eq_zero_iff.mpr hempty
      rw [String.utf8ByteSize_append] at hzero
      exact hne (String.utf8ByteSize_eq_zero_iff.mp (by omega))
    · rw [String.utf8ByteSize_append] at hsizePath ⊢
      omega
  refine ⟨enter d (candidate c.baseName c.extension n), locateFile_eq_ok.mpr ⟨?_, ?_⟩⟩
  · rw [(hlocate fs _ [] hnoslash).1, String.toList_append]
    intro hlast
    have hlist : (candidate c.baseName c.extension n).toList ≠ [] := by
      rwa [Ne, String.toList_eq_nil_iff]
    rw [List.getLast?_append, List.getLast?_eq_some_getLast hlist, Option.some_or] at hlast
    obtain hlast := Option.some.inj hlast
    exact hnoslash (hlast ▸ List.getLast_mem hlist)
  · exact (hlocate fs _ _ hnoslash).2.mpr
      ⟨hcheck', d, hwalk, hdirectory, Nat.le_trans hle hsize, rfl⟩

/-! ## The first free name -/

/-- Whatever is free, one of the names is taken. -/
theorem freeFrom_eq (fs : FileSystem) (path : Nat → String) (tries number : Nat) :
    ∃ n, n ≤ number + tries ∧ freeFrom fs path tries number = path n := by
  induction tries generalizing number with
  | zero => exact ⟨number, Nat.le_refl _, rfl⟩
  | succ tries ih =>
    rw [freeFrom]
    split
    · obtain ⟨n, hn, heq⟩ := ih (number + 1)
      exact ⟨n, by omega, heq⟩
    · exact ⟨number, by omega, rfl⟩

/-- The first name that is free, if one of those that are tried is. -/
theorem freeFrom_first {path : Nat → String} {tries number : Nat}
    (h : ∃ n, number ≤ n ∧ n ≤ number + tries ∧ fs.has (path n) = false) :
    ∃ n, number ≤ n ∧ n ≤ number + tries ∧ freeFrom fs path tries number = path n ∧
      fs.has (path n) = false ∧ ∀ k, number ≤ k → k < n → fs.has (path k) = true := by
  induction tries generalizing number with
  | zero =>
    obtain ⟨n, hle, hge, hfree⟩ := h
    obtain rfl : n = number := by omega
    exact ⟨n, hle, hge, rfl, hfree, fun k hk hkn => by omega⟩
  | succ tries ih =>
    rw [freeFrom]
    cases htaken : fs.has (path number) with
    | false => exact ⟨number, by omega, by omega, rfl, htaken, fun k hk hkn => by omega⟩
    | true =>
      obtain ⟨n, hle, hge, hfree⟩ := h
      have hne : n ≠ number := by
        rintro rfl
        rw [htaken] at hfree
        contradiction
      have hrest : ∃ n, number + 1 ≤ n ∧ n ≤ number + 1 + tries ∧ fs.has (path n) = false :=
        ⟨n, by omega, by omega, hfree⟩
      obtain ⟨k, hlek, hgek, heq, hfreek, hbefore⟩ := ih hrest
      refine ⟨k, by omega, by omega, heq, hfreek, fun l hl hlk => ?_⟩
      by_cases hl' : l = number
      · rw [hl', htaken]
      · exact hbefore l (by omega) hlk

/-- If all names before the last one are taken, it is the last one, free or not. -/
theorem freeFrom_of_taken {path : Nat → String} {tries number : Nat}
    (h : ∀ n, number ≤ n → n < number + tries → fs.has (path n) = true) :
    freeFrom fs path tries number = path (number + tries) := by
  induction tries generalizing number with
  | zero => rfl
  | succ tries ih =>
    rw [freeFrom, if_pos (h number (Nat.le_refl number) (by omega)),
      ih fun n hn hlt => h n (by omega) (by omega)]
    exact congrArg path (by omega)

/-- The partial file has one of the names that are made for it. -/
theorem partialPath_eq (fs : FileSystem) (c : Config) (size? : Option Int) (resume : Bool) :
    ∃ m, partialPath fs c size? resume =
      join c.directory (candidate (partialStem c size?) partialExtension m) := by
  unfold partialPath
  split
  · exact ⟨0, rfl⟩
  · obtain ⟨m, -, heq⟩ := freeFrom_eq fs (fun n =>
      join c.directory (candidate (partialStem c size?) partialExtension n)) lastNumber 0
    exact ⟨m, heq⟩

end SegmentedDownload.Naming
