import Mathlib
import SegmentedDownload.Proofs.LastNames

/-!
# SegmentedDownload.Proofs.NameSearch

Which name is found, and which names can never be the same.

* `Searched`: the path that is found has the least number that is free, or the last number if all
  of them are taken.
* The partial file of a download that can be resumed ends in `name.size.part`.  The size is behind
  the last point but one, whatever points and digits the name has, so both are read off the path
  again (`append_point_inj`).
* A number in parentheses ends with one, and a size ends with a digit, so no numbered partial file
  is ever one that can be resumed (`lastName_numbered_ne`).

Paths are compared by their last names.  These are the same for all ways to write a directory, so
paths with different last names are different in any case.
-/

namespace SegmentedDownload.Naming

variable {fs : FileSystem} {directory base extension path a b d e : String}

/-! ## The search -/

/-- The first of the numbered paths that leads to nothing, or the last one if there is none. -/
structure Searched (fs : FileSystem) (directory base extension path : String) : Prop where
  least : (∃ n ≤ lastNumber, fs.has (join directory (candidate base extension n)) = false) →
    ∃ n, IsLeast {n | n ≤ lastNumber ∧
        fs.has (join directory (candidate base extension n)) = false} n ∧
      path = join directory (candidate base extension n)
  last : (∀ n ≤ lastNumber, fs.has (join directory (candidate base extension n)) = true) →
    path = join directory (candidate base extension lastNumber)

/-- The search goes through the candidates in order, and ends with the last one. -/
theorem firstFree_searched (fs : FileSystem) (directory base extension : String) :
    Searched fs directory base extension (firstFree fs directory base extension) := by
  refine ⟨fun hsome => ?_, fun hall => ?_⟩
  · obtain ⟨n, hn, hfree⟩ := hsome
    have hsome : ∃ n, 0 ≤ n ∧ n ≤ 0 + lastNumber ∧
        fs.has (join directory (candidate base extension n)) = false :=
      ⟨n, Nat.zero_le n, hn.trans (Nat.zero_add _).ge, hfree⟩
    obtain ⟨k, -, hk, heq, hfreek, hbefore⟩ := freeFrom_first hsome
    refine ⟨k, ⟨⟨hk.trans (Nat.zero_add _).le, hfreek⟩, ?_⟩, heq⟩
    rintro m ⟨-, hfreem⟩
    by_contra hlt
    rw [hbefore m (Nat.zero_le m) (Nat.lt_of_not_le hlt)] at hfreem
    contradiction
  · have hlast : firstFree fs directory base extension =
        join directory (candidate base extension (0 + lastNumber)) :=
      freeFrom_of_taken fun n _ hn => hall n (by omega)
    rwa [Nat.zero_add] at hlast

/-! ## Reading a name back -/

theorem lastName_of_no_slash {name : String} (h : '/' ∉ name.toList) : lastName name = name := by
  have hnone := lastName_append "" h
  have hempty : lastName "" = "" := by decide
  rwa [String.empty_append, hempty, String.empty_append] at hnone

/-- The characters in front of the first point. -/
theorem takeWhile_point {front rest : List Char} (h : '.' ∉ front) :
    (front ++ '.' :: rest).takeWhile (· ≠ '.') = front := by
  have hall : ∀ c ∈ front, decide (c ≠ '.') = true := fun c hc =>
    decide_eq_true (ne_of_mem_of_not_mem hc h)
  rw [List.takeWhile_append_of_pos hall, List.takeWhile_cons_of_neg (by simp), List.append_nil]

/-- What stands behind the last point can be told from what stands before it. -/
theorem append_point_inj (hd : '.' ∉ d.toList) (he : '.' ∉ e.toList)
    (h : a ++ "." ++ d = b ++ "." ++ e) : a = b ∧ d = e := by
  have hlist : a.toList ++ '.' :: d.toList = b.toList ++ '.' :: e.toList := by
    simpa [String.toList_append] using congrArg String.toList h
  have hreverse := congrArg List.reverse hlist
  simp only [List.reverse_append, List.reverse_cons, List.append_assoc, List.singleton_append]
    at hreverse
  have hbehind : d.toList.reverse = e.toList.reverse := by
    have hfronts := congrArg (List.takeWhile (· ≠ '.')) hreverse
    rwa [takeWhile_point (by rwa [List.mem_reverse]), takeWhile_point (by rwa [List.mem_reverse])]
      at hfronts
  obtain rfl : d = e := String.toList_inj.mp (List.reverse_inj.mp hbehind)
  exact ⟨String.toList_inj.mp (List.append_cancel_right hlist), rfl⟩

/-! ## Partial files -/

variable {c c' : Config} {size? size'? : Option Int} {size size' : Int} {n : Nat}

/-- The partial file of a download that can be resumed is where no look into the directory can
change it. -/
theorem partialPath_resume (fs : FileSystem) (c : Config) (size? : Option Int) :
    partialPath fs c size? true =
      join c.directory (c.fileName ++ "." ++ (size?.getD 0).repr ++ ".part") := by
  rw [partialPath, if_pos rfl, candidate_eq, partialStem_eq]
  simp [numbering, partialExtension]

/-- The last name of a partial file that can be resumed tells the name and the size. -/
theorem lastName_partialPath_resume (fs : FileSystem) (c : Config) (size? : Option Int) :
    lastName (partialPath fs c size? true) =
      lastName (c.fileName ++ ".") ++ (size?.getD 0).repr ++ ".part" := by
  have hsize : '/' ∉ (size?.getD 0).repr.toList := fun hmem => by
    rcases mem_intRepr hmem with h | h <;> simp at h
  rw [partialPath_resume, lastName_join, lastName_append _ (by decide), lastName_append _ hsize]

/-- The name and the size can be told from the last name of the partial file. -/
theorem lastName_partialPath_inj {fs fs' : FileSystem} (hslash : '/' ∉ c.fileName.toList)
    (hslash' : '/' ∉ c'.fileName.toList)
    (h : lastName (partialPath fs c (some size) true) =
      lastName (partialPath fs' c' (some size') true)) : c.fileName = c'.fileName ∧ size = size' := by
  have hpoint : ∀ i : Int, '.' ∉ i.repr.toList := fun i hmem => by
    rcases mem_intRepr hmem with h | h <;> simp at h
  have hname : ∀ name : String, '/' ∉ name.toList → lastName (name ++ ".") = name ++ "." := by
    intro name hname
    rw [lastName_append _ (by decide), lastName_of_no_slash hname]
  rw [lastName_partialPath_resume, lastName_partialPath_resume, hname _ hslash, hname _ hslash',
    String.append_left_inj] at h
  obtain ⟨hfile, hsize⟩ := append_point_inj (hpoint size) (hpoint size') h
  exact ⟨hfile, Int.repr_inj.mp hsize⟩

/-- A number in parentheses is not a size, in whatever name it stands. -/
theorem lastName_numbered_ne (hn : 1 ≤ n) (directory : String) :
    lastName (join directory (candidate (partialStem c' size'?) partialExtension n)) ≠
      lastName (partialPath fs c size? true) := by
  have hnumber : numbering n = "(" ++ n.repr ++ ")" := if_neg (by omega)
  have hslash : '/' ∉ (numbering n).toList := numbering_no_slash n
  rw [lastName_join, candidate_eq, lastName_append _ (by decide), lastName_append _ hslash,
    lastName_partialPath_resume, partialExtension, Ne, String.append_left_inj, hnumber]
  intro h
  have hlast := congrArg (fun name => name.toList.getLast?) h
  have hsize : (size?.getD 0).repr.toList ≠ [] := by
    rw [Ne, String.toList_eq_nil_iff]
    exact intRepr_ne_empty _
  simp only [String.toList_append, List.getLast?_append, List.getLast?_eq_some_getLast hsize,
    Option.some_or] at hlast
  have hclose : (size?.getD 0).repr.toList.getLast hsize = ')' := by simpa using hlast.symm
  have hmem := List.getLast_mem hsize
  rw [hclose] at hmem
  rcases mem_intRepr hmem with h | h <;> simp at h

/-- **The search for names.**  The finished file, and the partial file of a download that cannot be
resumed, get the first of their names that is free, or the last one if none is.  The partial file of
a download that can be resumed does not depend on the files that there are.  It tells the name and
the size of its download, whatever characters but slashes the name is made of, and no numbered
partial file of any download is called like it. -/
theorem names_searched (fs : FileSystem) (c : Config) (size? : Option Int) :
    Searched fs c.directory c.baseName c.extension (destination fs c) ∧
      Searched fs c.directory (partialStem c size?) partialExtension
        (partialPath fs c size? false) ∧
      partialPath fs c size? true =
        join c.directory (c.fileName ++ "." ++ (size?.getD 0).repr ++ ".part") ∧
      (∀ (fs' : FileSystem) (c' : Config) (size size' : Int), '/' ∉ c.fileName.toList →
        '/' ∉ c'.fileName.toList → (c.fileName, size) ≠ (c'.fileName, size') →
        lastName (partialPath fs c (some size) true) ≠
          lastName (partialPath fs' c' (some size') true)) ∧
      ∀ (c' : Config) (size'? : Option Int) (n : Nat), 1 ≤ n →
        lastName (join c'.directory (candidate (partialStem c' size'?) partialExtension n)) ≠
          lastName (partialPath fs c size? true) := by
  refine ⟨firstFree_searched fs _ _ _, firstFree_searched fs _ _ _, partialPath_resume fs c size?,
    ?_, fun c' size'? n hn => lastName_numbered_ne hn c'.directory⟩
  intro fs' c' size size' hslash hslash' hne hsame
  obtain ⟨hname, hsize⟩ := lastName_partialPath_inj hslash hslash' hsame
  exact hne (Prod.ext hname hsize)

/-- A download of a file into the directory `d`. -/
def pointed : Config := { url := "http://h/a.b", directory := "d", baseName := "a", extension := ".b" }

/-- The directory `d` with files that are in the way of `pointed`. -/
def littered : FileSystem where
  entries := [(["d"], .directory), (["d", "a.b"], .file []), (["d", "a(1).b"], .file []),
    (["d", "a.b.0.part"], .file [])]

theorem littered_searched :
    destination littered pointed = "d/a(2).b" ∧
      partialPath littered pointed none false = "d/a.b.0(1).part" ∧
      partialPath littered pointed (some 5) true = "d/a.b.5.part" ∧
      lastName (partialPath littered pointed (some 5) true) ≠
        lastName (partialPath {} { pointed with baseName := "a.b", extension := ".5" } (some 5) true) ∧
      lastName (join "d" (candidate
          (partialStem { pointed with extension := ".b.5(1)" } none) partialExtension 1)) ≠
        lastName (partialPath littered pointed (some 5) true) := by
  obtain ⟨hfinished, -, -, hdifferent, -⟩ := names_searched littered pointed (some 5)
  obtain ⟨-, hpartial, -, -, -⟩ := names_searched littered pointed none
  obtain ⟨-, -, hresumed, -, hnumbered⟩ := names_searched littered pointed (some 5)
  have hleast : IsLeast {n | n ≤ lastNumber ∧
      littered.has (join "d" (candidate "a" ".b" n)) = false} 2 := by
    refine ⟨⟨by decide, by decide +kernel⟩, ?_⟩
    rintro n ⟨-, hfree⟩
    by_contra hlt
    interval_cases n <;> revert hfree <;> decide +kernel
  have hleast' : IsLeast {n | n ≤ lastNumber ∧ littered.has
      (join "d" (candidate (partialStem pointed none) partialExtension n)) = false} 1 := by
    refine ⟨⟨by decide, by decide +kernel⟩, ?_⟩
    rintro n ⟨-, hfree⟩
    by_contra hlt
    interval_cases n
    revert hfree
    decide +kernel
  obtain ⟨n, hn, hfound⟩ := hfinished.least ⟨2, hleast.1⟩
  obtain rfl := hn.unique hleast
  obtain ⟨m, hm, hfound'⟩ := hpartial.least ⟨1, hleast'.1⟩
  obtain rfl := hm.unique hleast'
  refine ⟨hfound.trans (by decide +kernel), hfound'.trans (by decide +kernel),
    hresumed.trans (by decide +kernel), ?_, ?_⟩
  · exact hdifferent {} _ 5 5 (by decide) (by decide) (by decide)
  · exact hnumbered { pointed with extension := ".b.5(1)" } none 1 (Nat.le_refl 1)

end SegmentedDownload.Naming
