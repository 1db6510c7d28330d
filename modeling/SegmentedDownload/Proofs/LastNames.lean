import Mathlib.Data.List.TakeWhile
import SegmentedDownload.Proofs.FreeNames

/-!
# SegmentedDownload.Proofs.LastNames

The finished file is never where the partial file is, not even if the file name has slashes.

What a path with slashes leads to is decided by its `lastName`, the part behind the last of
them:

* A path that leads to no directory ends in its last name (`locate_lastName`).
* Numbers and sizes bring neither a slash nor a point.  So the last name of the partial file,
  like the whole name, has two points more than that of the finished file
  (`points_lastName_partial`).
-/

namespace SegmentedDownload.Naming

open FileSystem

variable {fs : FileSystem} {path a b : String} {place q d : Place} {c : Config}
  {size? : Option Int} {n m : Nat}

/-! ## The last name of a path -/

/-- What stands behind the last slash of a path. -/
def lastName (path : String) : String :=
  String.ofList (path.toList.reverse.takeWhile (· ≠ '/')).reverse

/-- The last name of a path is what is behind its last slash. -/
theorem names_lastName (path : String) : ∃ above, names path = above ++ [lastName path] := by
  have hall : path.toList =
      (path.toList.reverse.dropWhile (· ≠ '/')).reverse ++ (lastName path).toList := by
    rw [lastName, String.toList_ofList, ← List.reverse_append, List.takeWhile_append_dropWhile,
      List.reverse_reverse]
  have hlast : '/' ∉ (lastName path).toList := by
    rw [lastName, String.toList_ofList, List.mem_reverse]
    intro hmem
    simpa using List.mem_takeWhile_imp hmem
  cases hfront : path.toList.reverse.dropWhile (· ≠ '/') with
  | nil =>
    rw [hfront, List.reverse_nil, List.nil_append] at hall
    refine ⟨[], ?_⟩
    rw [names, hall, List.splitOn_eq_singleton hlast]
    simp
  | cons x front =>
    have hx : x = '/' := by
      have hhead := List.head?_dropWhile_not (· ≠ '/') path.toList.reverse
      rw [hfront] at hhead
      simpa using hhead
    rw [hfront, hx, List.reverse_cons, List.append_assoc, List.singleton_append] at hall
    refine ⟨(front.reverse.splitOn '/').map String.ofList, ?_⟩
    rw [names, hall, List.splitOn_append_cons_self, List.splitOn_eq_singleton hlast]
    simp

/-- What is in front of a slash does not count. -/
theorem lastName_append_of_mem (a : String) (h : '/' ∈ b.toList) :
    lastName (a ++ b) = lastName b := by
  unfold lastName
  rw [String.toList_append, List.reverse_append, List.takeWhile_append, if_neg]
  intro hlength
  have hall := (List.takeWhile_prefix _).eq_of_length hlength
  have hslash := List.takeWhile_eq_self_iff.mp hall '/' (List.mem_reverse.mpr h)
  simp at hslash

/-- Without a slash the last name grows. -/
theorem lastName_append (a : String) (h : '/' ∉ b.toList) :
    lastName (a ++ b) = lastName a ++ b := by
  have hall : ∀ x ∈ b.toList.reverse, decide (x ≠ '/') = true := by
    intro x hx
    rw [decide_eq_true_iff]
    rintro rfl
    exact h (List.mem_reverse.mp hx)
  rw [← String.toList_inj]
  simp only [lastName, String.toList_append, List.reverse_append, String.toList_ofList]
  rw [List.takeWhile_append_of_pos hall, List.reverse_append, List.reverse_reverse]

/-- A front part that ends with a slash does not matter. -/
theorem lastName_append_of_empty (h : lastName a = "") (b : String) :
    lastName (a ++ b) = lastName b := by
  by_cases hslash : '/' ∈ b.toList
  · exact lastName_append_of_mem a hslash
  · have hnone : lastName ("" ++ b) = lastName "" ++ b := lastName_append "" hslash
    have hempty : lastName "" = "" := by decide
    rw [String.empty_append, hempty, String.empty_append] at hnone
    rw [lastName_append a hslash, h, String.empty_append, hnone]

/-- The directory does not matter for the last name. -/
theorem lastName_join (directory name : String) :
    lastName (join directory name) = lastName name := by
  unfold join
  split
  · rfl
  · split
    · next hslash =>
      refine lastName_append_of_empty ?_ name
      rcases List.eq_nil_or_concat directory.toList with hnil | ⟨front, last, hdirectory⟩
      · simp [lastName, hnil]
      · have hlast : last = '/' := by simpa [hdirectory] using hslash
        simp [lastName, hdirectory, hlast]
    · refine lastName_append_of_empty ?_ name
      rw [lastName_append_of_mem directory (by decide)]
      decide

/-! ## Points -/

/-- A number in parentheses brings no slash. -/
theorem numbering_no_slash (n : Nat) : '/' ∉ (numbering n).toList := fun hmem => by
  rcases mem_numbering hmem with h | h | h <;> simp at h

/-- A number in a name brings no points. -/
theorem points_lastName_candidate (base extension : String) (n : Nat) :
    points (lastName (candidate base extension n)) = points (lastName (base ++ extension)) := by
  rw [candidate_eq]
  by_cases hslash : '/' ∈ extension.toList
  · rw [lastName_append_of_mem _ hslash, lastName_append_of_mem _ hslash]
  · rw [lastName_append _ hslash, lastName_append _ hslash,
      lastName_append _ (numbering_no_slash n), points_append, points_append, points_append,
      points_numbering, Nat.add_zero]

theorem points_lastName_destination (c : Config) (n : Nat) :
    points (lastName (candidate c.baseName c.extension n)) = points (lastName c.fileName) :=
  points_lastName_candidate c.baseName c.extension n

/-- The last name of a partial file has two points more than that of the finished file. -/
theorem points_lastName_partial (c : Config) (size? : Option Int) (m : Nat) :
    points (lastName (candidate (partialStem c size?) partialExtension m)) =
      points (lastName c.fileName) + 2 := by
  have hslash : '/' ∉ (size?.getD 0).repr.toList := fun hmem => by
    rcases mem_intRepr hmem with h | h <;> simp at h
  have hpoint : '/' ∉ (".": String).toList ∧ points "." = 1 := by decide
  have hpart : '/' ∉ partialExtension.toList ∧ points partialExtension = 1 := by decide
  rw [points_lastName_candidate, lastName_append _ hpart.1, partialStem_eq,
    lastName_append _ hslash, lastName_append _ hpoint.1, points_append, points_append,
    points_append, points_intRepr, hpoint.2, hpart.2]

/-! ## Places -/

/-- The places on the way to a place are directories. -/
def Rooted (fs : FileSystem) (place : Place) : Prop :=
  ∀ k < place.length, fs.node? (place.take k) = some .directory

/-- To enter a name stays below the root. -/
theorem Rooted.enter (h : Rooted fs place) (hnode : fs.node? place = some .directory)
    (name : String) : Rooted fs (enter place name) := by
  unfold FileSystem.enter
  split
  · exact h
  · split
    · intro k hk
      rw [List.length_dropLast] at hk
      rw [List.dropLast_eq_take, List.take_take, Nat.min_eq_left (by omega)]
      exact h k (by omega)
    · intro k hk
      rw [List.length_append, List.length_singleton] at hk
      rw [List.take_append_of_le_length (by omega)]
      by_cases hlast : k = place.length
      · rw [hlast, List.take_length, hnode]
      · exact h k (by omega)

theorem Rooted.walk {names : List String} (h : Rooted fs place)
    (hwalk : fs.walk place names = .ok q) : Rooted fs q := by
  induction names generalizing place with
  | nil => exact Except.ok.inj hwalk ▸ h
  | cons name names ih =>
    obtain ⟨hnode, -, hrest⟩ := walk_cons.mp hwalk
    exact ih (h.enter hnode name) hrest

/-- A name of dots, or none at all, leads from a directory to one. -/
theorem Rooted.enter_cases (h : Rooted fs place) (hnode : fs.node? place = some .directory)
    (name : String) :
    fs.node? (FileSystem.enter place name) = some .directory ∨
      FileSystem.enter place name = place ++ [name] := by
  unfold FileSystem.enter
  split
  · exact Or.inl hnode
  · split
    · left
      rcases List.eq_nil_or_concat place with rfl | ⟨front, last, rfl⟩
      · rfl
      · have hfront := h front.length (by simp)
        rw [List.concat_eq_append, List.take_left] at hfront
        rw [List.concat_eq_append, List.dropLast_concat]
        exact hfront
    · exact Or.inr rfl

/-- A path that leads to no directory ends in its last name. -/
theorem locate_lastName (hlocate : fs.locate path = .ok q)
    (hnode : fs.node? q ≠ some .directory) : ∃ d, q = d ++ [lastName path] := by
  obtain ⟨above, hnames⟩ := names_lastName path
  have hwalk := (locate_eq_ok.mp hlocate).2
  rw [hnames, walk_append] at hwalk
  obtain ⟨d, habove, hlast⟩ := hwalk
  obtain ⟨hdirectory, -, hend⟩ := walk_cons.mp hlast
  obtain rfl := Except.ok.inj hend
  have hroot : Rooted fs [] := fun k hk => absurd hk (Nat.not_lt_zero k)
  rcases (hroot.walk habove).enter_cases hdirectory (lastName path) with hother | heq
  · exact absurd hother hnode
  · exact ⟨d, heq⟩

/-- The finished file and a partial file that is no directory are not in one place. -/
theorem destination_apart
    (hpartial : fs.locate
      (join c.directory (candidate (partialStem c size?) partialExtension m)) = .ok place)
    (hnode : fs.node? place ≠ some .directory)
    (hdestination : fs.locate
      (join c.directory (candidate c.baseName c.extension n)) = .ok q) : q ≠ place := by
  rintro rfl
  obtain ⟨d, hd⟩ := locate_lastName hpartial hnode
  obtain ⟨d', hd'⟩ := locate_lastName hdestination hnode
  have hname := (List.append_inj' (hd.symm.trans hd') (by simp only [List.length_singleton])).2
  rw [lastName_join, lastName_join] at hname
  have hpoints := congrArg points (List.cons.inj hname).1
  rw [points_lastName_partial, points_lastName_destination] at hpoints
  omega

end SegmentedDownload.Naming
