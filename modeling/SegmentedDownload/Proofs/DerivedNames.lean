import Mathlib
import SegmentedDownload.Proofs.EndToEnd
import SegmentedDownload.Proofs.NameSearch
import SegmentedDownload.Proofs.UrlNames

/-!
# SegmentedDownload.Proofs.DerivedNames

A configuration that is made from a URL and a directory can be started.

* `Splits`: what the two parts of a name have to be.  No other parts have this
  (`Splits.unique`), so it says all about `splitName` (`splits_iff`).
* The front of a name is empty for the empty name only, and a URL never gives that
  (`Url.fileName_ne_empty`), so the check of the name cannot fail.
* A text of blanks has no colon, so a URL is never refused as an empty text
  (`checkUrl_eq_ok`).
-/

namespace SegmentedDownload

/-! ## Reading a URL -/

namespace Url

variable {text : String} {s rest letters : List Char} {url : Url}

theorem trim_subset (s : List Char) : trim s ⊆ s := fun c hc => by
  have hfront := (List.dropWhile_suffix _).subset (List.mem_reverse.mp hc)
  exact (List.dropWhile_suffix _).subset (List.mem_reverse.mp hfront)

/-- A scheme ends with a colon. -/
theorem colon_mem_of_scheme? (h : scheme? s = some (letters, rest)) : ':' ∈ s := by
  unfold scheme? at h
  dsimp only at h
  split at h
  · rename_i hcolon
    exact (List.dropWhile_suffix _).subset (hcolon ▸ List.mem_cons_self)
  · contradiction

/-- A URL is not blank: it has a colon behind its scheme. -/
theorem not_isAllBlank (h : ofText text = .ok url) : Text.isAllBlank text.toList = false := by
  unfold ofText at h
  split at h
  · contradiction
  · rename_i hscheme
    have hcolon : ':' ∈ text.toList := trim_subset _ (colon_mem_of_scheme? hscheme)
    exact List.all_eq_false.mpr ⟨':', hcolon, by decide⟩

end Url

namespace Config

variable {name base base' extension extension' front rest url directory : String}

/-- The check of a URL looks at nothing but its scheme. -/
theorem checkUrl_eq_ok : checkUrl url = .ok () ↔
    ∃ parsed, Url.ofText url = .ok parsed ∧
      (parsed.scheme = "http" ∨ parsed.scheme = "https") := by
  cases hparsed : Url.ofText url with
  | error cause =>
    simp only [checkUrl, hparsed]
    split <;> simp
  | ok parsed => simp [checkUrl, hparsed, Url.not_isAllBlank hparsed, or_iff_not_imp_left]

/-! ## Splitting a name -/

/-- A name without a point behind its first character is all base. -/
theorem splitName_of_no_point (h : '.' ∉ name.toList.tail) : splitName name = (name, "") := by
  unfold splitName
  dsimp only
  rw [if_neg]
  rintro ⟨-, hplace⟩
  cases hname : name.toList with
  | nil => simp [hname] at hplace
  | cons c behind =>
    have hall : ∀ d ∈ behind.reverse, decide (d ≠ '.') = true := fun d hd =>
      decide_eq_true (ne_of_mem_of_not_mem (List.mem_reverse.mp hd) (by rwa [hname] at h))
    rw [hname, List.reverse_cons, List.takeWhile_append_of_pos hall] at hplace
    simp at hplace
    omega

/-- A name is split at its last point, if there is something in front of it. -/
theorem splitName_point (hfront : front ≠ "") (hrest : '.' ∉ rest.toList) :
    splitName (front ++ "." ++ rest) = (front, "." ++ rest) := by
  have hchars : (front ++ "." ++ rest).toList = front.toList ++ '.' :: rest.toList := by simp
  have htail : ((front ++ "." ++ rest).toList.reverse.takeWhile (· ≠ '.')).reverse =
      rest.toList := by
    rw [hchars, List.reverse_append, List.reverse_cons, List.append_assoc, List.singleton_append,
      Naming.takeWhile_point (by rwa [List.mem_reverse]), List.reverse_reverse]
  have hpos : 0 < front.toList.length :=
    List.length_pos_iff.mpr (by rwa [Ne, String.toList_eq_nil_iff])
  unfold splitName
  dsimp only
  rw [htail, hchars]
  have hplace : (front.toList ++ '.' :: rest.toList).length - rest.toList.length - 1 =
      front.toList.length := by
    simp
    omega
  rw [hplace, if_pos ⟨by simp; omega, hpos⟩, List.take_left, List.drop_left]
  refine Prod.ext (String.ofList_toList) (String.toList_inj.mp ?_)
  simp

/-- A name in two parts: the second one is the last point and what follows it, unless there is
no point behind the first character. -/
structure Splits (name base extension : String) : Prop where
  append : base ++ extension = name
  base_empty : base = "" → name = ""
  extension_cases : extension = "" ∨ ∃ rest, extension = "." ++ rest ∧ '.' ∉ rest.toList
  extension_empty : extension = "" ↔ '.' ∉ name.toList.tail

/-- A name with a point behind its first character has a last one there. -/
theorem exists_last_point (h : '.' ∈ name.toList.tail) :
    ∃ front rest, front ≠ "" ∧ '.' ∉ rest.toList ∧ name = front ++ "." ++ rest := by
  cases hname : name.toList with
  | nil => simp [hname] at h
  | cons c behind =>
    rw [hname, List.tail_cons, ← List.mem_reverse] at h
    obtain ⟨last, before, hreverse, hnone⟩ := List.eq_append_cons_of_mem h
    refine ⟨String.ofList (c :: before.reverse), String.ofList last.reverse, by simp, by simpa, ?_⟩
    have hbehind := congrArg List.reverse hreverse
    apply String.toList_inj.mp
    simp [hname] at hbehind ⊢
    exact hbehind

/-- A name is split in the one way that is right. -/
theorem splitName_splits (name : String) : Splits name (splitName name).1 (splitName name).2 := by
  by_cases hpoint : '.' ∈ name.toList.tail
  · obtain ⟨front, rest, hfront, hrest, rfl⟩ := exists_last_point hpoint
    rw [splitName_point hfront hrest]
    exact ⟨String.append_assoc.symm, fun h => absurd h hfront, Or.inr ⟨rest, rfl, hrest⟩,
      iff_of_false (by simp) (not_not_intro hpoint)⟩
  · rw [splitName_of_no_point hpoint]
    exact ⟨String.append_empty, id, Or.inl rfl, by simp [hpoint]⟩

/-- Only one way to split a name is right. -/
theorem Splits.unique (h : Splits name base extension) (h' : Splits name base' extension') :
    base = base' ∧ extension = extension' := by
  have hiff : extension = "" ↔ extension' = "" := h.extension_empty.trans h'.extension_empty.symm
  have happend : base ++ extension = base' ++ extension' := h.append.trans h'.append.symm
  rcases h.extension_cases with rfl | ⟨rest, rfl, hrest⟩
  · obtain rfl := hiff.mp rfl
    exact ⟨by simpa using happend, rfl⟩
  · have hne : extension' ≠ "" := mt hiff.mpr (by simp)
    obtain ⟨rest', rfl, hrest'⟩ := h'.extension_cases.resolve_left hne
    rw [← String.append_assoc, ← String.append_assoc] at happend
    obtain ⟨rfl, rfl⟩ := Naming.append_point_inj hrest hrest' happend
    exact ⟨rfl, rfl⟩

/-- `Splits` leaves nothing open about the two parts of a name. -/
theorem splits_iff : Splits name base extension ↔ splitName name = (base, extension) := by
  constructor
  · intro h
    obtain ⟨hbase, hextension⟩ := (splitName_splits name).unique h
    exact Prod.ext hbase hextension
  · intro h
    have hsplits := splitName_splits name
    rwa [h] at hsplits

example : splitName "archive.tar.gz" = ("archive.tar", ".gz") := by decide

example : splitName ".." = (".", ".") := by decide

/-! ## Configurations -/

theorem new_eq (url directory : String) :
    new url directory = { url, directory, baseName := (splitName (Url.fileName url)).1,
                          extension := (splitName (Url.fileName url)).2 } := by
  unfold new
  generalize splitName (Url.fileName url) = parts
  rfl

/-- A new configuration is as valid as its URL and its directory. -/
theorem validate_new : (new url directory).validate = .ok () ↔
    checkUrl url = .ok () ∧ directory ≠ "" := by
  have hname : (splitName (Url.fileName url)).1 ≠ "" := fun h =>
    Url.fileName_ne_empty url ((splitName_splits (Url.fileName url)).base_empty h)
  rw [new_eq]
  constructor
  · intro h
    obtain ⟨hurl, hdirectory, -⟩ := validate_ok h
    exact ⟨hurl, hdirectory⟩
  · rintro ⟨hurl, hdirectory⟩
    exact validate_of hurl hdirectory hname (Nat.succ_ne_zero 3) rfl

/-- A configuration that is made from a URL of the web and a directory is valid, whatever the URL
ends in, and has the name that the URL gives, in the two parts that `Splits` says.  With any other
URL or without a directory it is not valid. -/
theorem new_valid (url directory : String) :
    ((new url directory).validate = .ok () ↔
        (∃ parsed, Url.ofText url = .ok parsed ∧
          (parsed.scheme = "http" ∨ parsed.scheme = "https")) ∧ directory ≠ "") ∧
      (new url directory).fileName = Url.fileName url ∧
      ∀ name base extension, Splits name base extension ↔ splitName name = (base, extension) :=
  ⟨by rw [validate_new, checkUrl_eq_ok], new_fileName url directory, fun _ _ _ => splits_iff⟩

/-- A name of nothing but points, in front of a slash. -/
theorem threePoints_valid : (new "https://h/a/.../" "d").validate = .ok () ∧
    (new "https://h/a/.../" "d").fileName = "..." ∧ Splits "..." ".." "." := by
  obtain ⟨hvalid, hname, hsplits⟩ := new_valid "https://h/a/.../" "d"
  have hweb : checkUrl "https://h/a/.../" = .ok () := by decide +kernel
  have hparts : splitName "..." = ("..", ".") := by decide
  exact ⟨hvalid.mpr ⟨checkUrl_eq_ok.mp hweb, by decide⟩, hname.trans (by decide +kernel),
    (hsplits _ _ _).mpr hparts⟩

end Config

end SegmentedDownload
