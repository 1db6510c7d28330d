import SegmentedDownload.FileSystem

/-!
# SegmentedDownload.Proofs.Paths

Where paths lead to, and what keeps them.

* A path is followed through directories only, so that trees with the same directories
  give every path the same place (`locate_congr`).
* `AddsDirectories` is all that making a directory does to a tree.
* On a reliable tree a change fails only for what it finds there; each change has one
  lemma that says which nodes it leaves behind.
* On any tree a change that fails leaves all nodes alone (`attempt_of_fault`).
-/

namespace SegmentedDownload.FileSystem

variable {fs fs' : FileSystem} {place q : Place} {path : String}

/-! ## Walking -/

/-- Two trees have the same directories. -/
def SameDirectories (fs fs' : FileSystem) : Prop :=
  ∀ q, fs.node? q = some .directory ↔ fs'.node? q = some .directory

theorem SameDirectories.symm (h : SameDirectories fs fs') : SameDirectories fs' fs :=
  fun q => (h q).symm

/-- The first name is followed from a directory. -/
theorem walk_cons {name : String} {names : List String} :
    fs.walk place (name :: names) = .ok q ↔
      fs.node? place = some .directory ∧ name.utf8ByteSize ≤ 255 ∧
        fs.walk (enter place name) names = .ok q := by
  rw [walk]
  constructor
  · intro h
    split at h
    · contradiction
    · contradiction
    · next hnode =>
      split at h
      · contradiction
      · next hsize => exact ⟨hnode, Nat.le_of_not_lt hsize, h⟩
  · rintro ⟨hnode, hsize, h⟩
    rw [hnode]
    simp only [if_neg (Nat.not_lt.mpr hsize)]
    exact h

/-- A walk can be taken in two parts. -/
theorem walk_append {front back : List String} :
    fs.walk place (front ++ back) = .ok q ↔
      ∃ middle, fs.walk place front = .ok middle ∧ fs.walk middle back = .ok q := by
  induction front generalizing place with
  | nil => simp [walk]
  | cons name front ih =>
    rw [List.cons_append, walk_cons, ih]
    constructor
    · rintro ⟨hnode, hsize, middle, hfront, hback⟩
      exact ⟨middle, walk_cons.mpr ⟨hnode, hsize, hfront⟩, hback⟩
    · rintro ⟨middle, hfront, hback⟩
      obtain ⟨hnode, hsize, hfront⟩ := walk_cons.mp hfront
      exact ⟨hnode, hsize, middle, hfront, hback⟩

/-- Where names lead to depends on directories only, and more of them do no harm. -/
theorem walk_mono (h : ∀ q, fs.node? q = some .directory → fs'.node? q = some .directory)
    {names : List String} (hwalk : fs.walk place names = .ok q) :
    fs'.walk place names = .ok q := by
  induction names generalizing place with
  | nil => exact hwalk
  | cons name names ih =>
    obtain ⟨hnode, hsize, hrest⟩ := walk_cons.mp hwalk
    exact walk_cons.mpr ⟨h place hnode, hsize, ih hrest⟩

/-! ## Locating -/

/-- A path leads where its names do, if it can be followed at all. -/
theorem locate_eq_ok :
    fs.locate path = .ok q ↔ checkPath path = .ok () ∧ fs.walk [] (names path) = .ok q := by
  unfold locate
  cases checkPath path with
  | error cause => simp [bind, Except.bind]
  | ok => simp [bind, Except.bind]

/-- The path of a file does not end with a slash. -/
theorem locateFile_eq_ok {cause : IoError} :
    fs.locateFile path cause = .ok q ↔
      path.toList.getLast? ≠ some '/' ∧ fs.locate path = .ok q := by
  rw [locate_eq_ok]
  unfold locateFile
  cases checkPath path with
  | error cause => simp [bind, Except.bind]
  | ok =>
    by_cases hslash : path.toList.getLast? = some '/'
    · cases fs.walkAbove (names path) <;> simp [bind, Except.bind, hslash, throw, throwThe,
        MonadExceptOf.throw]
    · simp [bind, Except.bind, hslash]

/-- More directories leave the paths that led somewhere as they are. -/
theorem locate_mono (h : ∀ q, fs.node? q = some .directory → fs'.node? q = some .directory)
    (hlocate : fs.locate path = .ok q) : fs'.locate path = .ok q := by
  obtain ⟨hcheck, hwalk⟩ := locate_eq_ok.mp hlocate
  exact locate_eq_ok.mpr ⟨hcheck, walk_mono h hwalk⟩

/-- The same directories make the same paths. -/
theorem locate_congr (h : SameDirectories fs fs') (hlocate : fs.locate path = .ok q) :
    fs'.locate path = .ok q :=
  locate_mono (fun q => (h q).mp) hlocate

theorem locateFile_congr {cause cause' : IoError} (h : SameDirectories fs fs')
    (hlocate : fs.locateFile path cause = .ok q) : fs'.locateFile path cause' = .ok q := by
  obtain ⟨hslash, hlocate⟩ := locateFile_eq_ok.mp hlocate
  exact locateFile_eq_ok.mpr ⟨hslash, locate_congr h hlocate⟩

/-- There is something at a path if the path leads to a node. -/
theorem has_eq_true : fs.has path = true ↔ ∃ q, fs.locate path = .ok q ∧ fs.node? q ≠ none := by
  unfold has find?
  cases fs.locate path with
  | error cause => simp
  | ok q => simp [Option.isSome_iff_ne_none]

/-- A path leads to something in one tree as in the other, if they differ in nothing
that it leads to. -/
theorem has_congr (h : SameDirectories fs fs')
    (hnode : ∀ q, fs.locate path = .ok q → fs'.node? q = fs.node? q) :
    fs'.has path = fs.has path := by
  rw [Bool.eq_iff_iff, has_eq_true, has_eq_true]
  constructor
  · rintro ⟨q, hlocate, hq⟩
    have hlocate' := locate_congr h.symm hlocate
    exact ⟨q, hlocate', by rwa [← hnode q hlocate']⟩
  · rintro ⟨q, hlocate, hq⟩
    exact ⟨q, locate_congr h hlocate, by rwa [hnode q hlocate]⟩

/-- A place that is no directory is not the root. -/
theorem ne_nil_of_node? (h : fs.node? place ≠ some .directory) : place ≠ [] := by
  rintro rfl
  exact h rfl

/-! ## Changes of a reliable tree -/

/-- The system refuses no change. -/
def Reliable (fs : FileSystem) : Prop := ∀ fault? ∈ fs.faults, fault? = none

/-- Without faults the next change of the tree succeeds. -/
theorem Reliable.next (h : fs.Reliable) :
    ∃ fs', fs.next = (fs', none) ∧ fs'.Reliable ∧ fs'.node? = fs.node? := by
  unfold FileSystem.next
  cases hfaults : fs.faults with
  | nil => exact ⟨fs, rfl, h, rfl⟩
  | cons fault? faults =>
    rw [Reliable, hfaults, List.forall_mem_cons] at h
    exact ⟨_, Prod.ext rfl h.1, h.2, rfl⟩

theorem sameDirectories_of_node? (h : fs'.node? = fs.node?) : SameDirectories fs fs' := by
  intro q
  rw [h]

/-- A change of a reliable tree is made if it can be. -/
theorem Reliable.attempt (h : fs.Reliable) (change : FileSystem → Except IoError FileSystem) :
    ∃ fs', fs'.Reliable ∧ fs'.node? = fs.node? ∧ fs.attempt change =
      match change fs' with
      | .ok changed => (changed, none)
      | .error fault => (fs', some fault) := by
  obtain ⟨fs', hnext, hreliable, hnode⟩ := h.next
  refine ⟨fs', hreliable, hnode, ?_⟩
  cases hchange : change fs' with
  | ok changed => simp [FileSystem.attempt, hnext, hchange]
  | error fault => simp [FileSystem.attempt, hnext, hchange]

section Changes

variable {contents old : Bytes} {source target : Place} {sourcePath targetPath : String}

/-- A new file is made where nothing is yet. -/
theorem createNew_reliable (h : fs.Reliable) {cause : IoError}
    (hlocate : fs.locateFile path cause = .ok place) (hnone : fs.node? place = none) :
    ∃ fs', fs.createNew path = (fs', none) ∧ fs'.Reliable ∧
      ∀ q, fs'.node? q = if q = place then some (.file []) else fs.node? q := by
  obtain ⟨fs₁, hreliable, hnode, heq⟩ := h.attempt _
  have hlocate₁ : fs₁.locateFile path .isADirectory = .ok place :=
    locateFile_congr (sameDirectories_of_node? hnode) hlocate
  have hplace : place ≠ [] := ne_nil_of_node? (by rw [hnone]; simp)
  refine ⟨fs₁.put place (.file []), ?_, hreliable, fun q => ?_⟩
  · rw [createNew, heq]
    simp [hlocate₁, hnode, hnone, bind, Except.bind, pure, Except.pure]
  · rw [node?_put hplace, hnode]

/-- A file that is there can be written. -/
theorem write_reliable (h : fs.Reliable) {cause : IoError}
    (hlocate : fs.locateFile path cause = .ok place) (hfile : fs.node? place = some (.file old))
    (contents : Bytes) :
    ∃ fs', fs.write path contents = (fs', none) ∧ fs'.Reliable ∧
      ∀ q, fs'.node? q = if q = place then some (.file contents) else fs.node? q := by
  obtain ⟨fs₁, hreliable, hnode, heq⟩ := h.attempt _
  have hlocate₁ : fs₁.locateFile path .isADirectory = .ok place :=
    locateFile_congr (sameDirectories_of_node? hnode) hlocate
  have hplace : place ≠ [] := ne_nil_of_node? (by rw [hfile]; simp)
  refine ⟨fs₁.put place (.file contents), ?_, hreliable, fun q => ?_⟩
  · rw [FileSystem.write, heq]
    simp [hlocate₁, hnode, hfile, bind, Except.bind, pure, Except.pure]
  · rw [node?_put hplace, hnode]

/-- A file that is there can be removed. -/
theorem remove_reliable (h : fs.Reliable) (hlocate : fs.locate path = .ok place)
    (hfile : fs.node? place = some (.file old)) :
    ∃ fs', fs.remove path = (fs', none) ∧ fs'.Reliable ∧
      ∀ q, fs'.node? q = if q = place then none else fs.node? q := by
  obtain ⟨fs₁, hreliable, hnode, heq⟩ := h.attempt _
  have hlocate₁ : fs₁.locate path = .ok place :=
    locate_congr (sameDirectories_of_node? hnode) hlocate
  have hplace : place ≠ [] := ne_nil_of_node? (by rw [hfile]; simp)
  refine ⟨fs₁.erase place, ?_, hreliable, fun q => ?_⟩
  · rw [remove, heq]
    simp [hlocate₁, hnode, hfile, bind, Except.bind, pure, Except.pure]
  · rw [node?_erase hplace, hnode]

/-- A file gets a new path, also where there is another one. -/
theorem rename_reliable (h : fs.Reliable) {cause : IoError}
    (hsource : fs.locate sourcePath = .ok source)
    (htarget : fs.locateFile targetPath cause = .ok target)
    (hfile : fs.node? source = some (.file contents))
    (hother : fs.node? target ≠ some .directory) :
    ∃ fs', fs.rename sourcePath targetPath = (fs', none) ∧ fs'.Reliable ∧
      ∀ q, fs'.node? q =
        if q = target then some (.file contents) else if q = source then none else fs.node? q := by
  obtain ⟨fs₁, hreliable, hnode, heq⟩ := h.attempt _
  have hsame := sameDirectories_of_node? hnode
  have hsource₁ : fs₁.locate sourcePath = .ok source := locate_congr hsame hsource
  have htarget₁ : fs₁.locateFile targetPath .notADirectory = .ok target :=
    locateFile_congr hsame htarget
  have hsourcePlace : source ≠ [] := ne_nil_of_node? (by rw [hfile]; simp)
  have htargetPlace : target ≠ [] := ne_nil_of_node? hother
  refine ⟨(fs₁.erase source).put target (.file contents), ?_, hreliable, fun q => ?_⟩
  · rw [rename, heq]
    simp only [hsource₁, htarget₁, hnode, hfile, bind, Except.bind, pure, Except.pure]
    cases hfound : fs.node? target with
    | none => rfl
    | some node =>
      cases node with
      | file old => rfl
      | directory => exact absurd hfound hother
  · rw [node?_put htargetPlace, node?_erase hsourcePlace, hnode]

end Changes

/-! ## Changes that may be refused -/

theorem node?_next (fs : FileSystem) : fs.next.1.node? = fs.node? := by
  unfold next
  split <;> rfl

/-- A change is made to the tree as it is, or leaves the nodes alone. -/
theorem attempt_cases {change : FileSystem → Except IoError FileSystem} {fault? : Option IoError}
    (h : fs.attempt change = (fs', fault?)) :
    (fault? = none ∧ ∃ fs₁, fs₁.node? = fs.node? ∧ change fs₁ = .ok fs') ∨
      (fault?.isSome ∧ fs'.node? = fs.node?) := by
  have hnode := node?_next fs
  unfold attempt at h
  cases hnext : fs.next with
  | mk fs₁ refused? =>
    rw [hnext] at h hnode
    cases refused? with
    | some fault =>
      obtain ⟨rfl, rfl⟩ := h
      exact Or.inr ⟨rfl, hnode⟩
    | none =>
      dsimp only at h
      cases hchange : change fs₁ with
      | ok changed =>
        rw [hchange] at h
        obtain ⟨rfl, rfl⟩ := h
        exact Or.inl ⟨rfl, fs₁, hnode, hchange⟩
      | error fault =>
        rw [hchange] at h
        obtain ⟨rfl, rfl⟩ := h
        exact Or.inr ⟨rfl, hnode⟩

/-- A change that fails leaves the nodes alone. -/
theorem attempt_of_fault {change : FileSystem → Except IoError FileSystem} {fault : IoError}
    (h : fs.attempt change = (fs', some fault)) : fs'.node? = fs.node? := by
  rcases attempt_cases h with ⟨hnone, -⟩ | ⟨-, hnode⟩
  · contradiction
  · exact hnode

/-- A new file is where nothing was. -/
theorem node?_createNew (h : fs.createNew path = (fs', none)) :
    ∃ place, fs.locateFile path .isADirectory = .ok place ∧ fs.node? place = none ∧
      ∀ q, fs'.node? q = if q = place then some (.file []) else fs.node? q := by
  unfold createNew at h
  rcases attempt_cases h with ⟨-, fs₁, hnode, hchange⟩ | ⟨hfault, -⟩
  · have hsame : SameDirectories fs₁ fs := sameDirectories_of_node? hnode.symm
    cases hlocate : fs₁.locateFile path .isADirectory with
    | error cause => simp [hlocate, bind, Except.bind] at hchange
    | ok place =>
      simp only [hlocate, bind, Except.bind, pure, Except.pure, throw, throwThe,
        MonadExceptOf.throw] at hchange
      split at hchange
      · contradiction
      · next hnone =>
        obtain rfl := Except.ok.inj hchange
        have hnone : fs.node? place = none := by
          rw [← hnode]
          simpa using hnone
        refine ⟨place, locateFile_congr hsame hlocate, hnone, fun q => ?_⟩
        rw [node?_put (ne_nil_of_node? (by rw [hnone]; simp)), hnode]
  · contradiction

/-- A file that is written has the new contents. -/
theorem nodes_write {contents : Bytes} (h : fs.write path contents = (fs', none)) :
    ∃ place, fs.locateFile path .isADirectory = .ok place ∧
      ∀ q, fs'.node? q = if q = place then some (.file contents) else fs.node? q := by
  unfold FileSystem.write at h
  rcases attempt_cases h with ⟨-, fs₁, hnode, hchange⟩ | ⟨hfault, -⟩
  · have hsame : SameDirectories fs₁ fs := sameDirectories_of_node? hnode.symm
    simp only [bind, Except.bind, pure, Except.pure, throw, throwThe,
      MonadExceptOf.throw] at hchange
    split at hchange
    · contradiction
    · next place hlocate =>
      split at hchange
      · contradiction
      · next hother =>
        obtain rfl := Except.ok.inj hchange
        refine ⟨place, locateFile_congr hsame hlocate, fun q => ?_⟩
        rw [node?_put (ne_nil_of_node? hother), hnode]
  · contradiction

/-- Writing to a file leaves the nodes at other places alone. -/
theorem node?_write {contents : Bytes} {fault? : Option IoError}
    (h : fs.write path contents = (fs', fault?))
    (hlocate : fs.locateFile path .isADirectory = .ok place) (hq : q ≠ place) :
    fs'.node? q = fs.node? q := by
  cases fault? with
  | some fault => rw [attempt_of_fault h]
  | none =>
    obtain ⟨place', hlocate', hnodes⟩ := nodes_write h
    obtain rfl := Except.ok.inj (hlocate.symm.trans hlocate')
    rw [hnodes, if_neg hq]

/-- A file that is removed is gone, and it is the one that the path leads to. -/
theorem nodes_remove (h : fs.remove path = (fs', none)) :
    ∃ place, fs.locate path = .ok place ∧
      ∀ q, fs'.node? q = if q = place then none else fs.node? q := by
  unfold remove at h
  rcases attempt_cases h with ⟨-, fs₁, hnode, hchange⟩ | ⟨hfault, -⟩
  · have hsame : SameDirectories fs₁ fs := sameDirectories_of_node? hnode.symm
    simp only [bind, Except.bind, pure, Except.pure, throw, throwThe,
      MonadExceptOf.throw] at hchange
    split at hchange
    · contradiction
    · next place hlocate =>
      split at hchange
      · next hfile =>
        obtain rfl := Except.ok.inj hchange
        refine ⟨place, locate_congr hsame hlocate, fun q => ?_⟩
        rw [node?_erase (ne_nil_of_node? (by rw [hfile]; simp)), hnode]
      · contradiction
      · contradiction
  · contradiction

/-- Removing a file leaves the nodes at other places alone. -/
theorem node?_remove {fault? : Option IoError} (h : fs.remove path = (fs', fault?))
    (hlocate : fs.locate path = .ok place) (hq : q ≠ place) : fs'.node? q = fs.node? q := by
  cases fault? with
  | some fault => rw [attempt_of_fault h]
  | none =>
    obtain ⟨place', hlocate', hnodes⟩ := nodes_remove h
    obtain rfl := Except.ok.inj (hlocate.symm.trans hlocate')
    rw [hnodes, if_neg hq]

/-- A file that gets a new path replaces what was there. -/
theorem nodes_rename {sourcePath targetPath : String}
    (h : fs.rename sourcePath targetPath = (fs', none)) :
    ∃ source target contents,
      fs.locate sourcePath = .ok source ∧ fs.locate targetPath = .ok target ∧
      fs.node? source = some (.file contents) ∧
      ∀ q, fs'.node? q =
        if q = target then some (.file contents) else if q = source then none else fs.node? q := by
  unfold rename at h
  rcases attempt_cases h with ⟨-, fs₁, hnode, hchange⟩ | ⟨hfault, -⟩
  · have hsame : SameDirectories fs₁ fs := sameDirectories_of_node? hnode.symm
    simp only [bind, Except.bind, pure, Except.pure, throw, throwThe,
      MonadExceptOf.throw] at hchange
    split at hchange
    · contradiction
    · next source hsource =>
      split at hchange
      · contradiction
      · next target htarget =>
        have htarget' := locate_congr hsame (locateFile_eq_ok.mp htarget).2
        split at hchange
        · next contents _ hfile hother =>
          obtain rfl := Except.ok.inj hchange
          refine ⟨source, target, contents, locate_congr hsame hsource, htarget', hnode ▸ hfile,
            fun q => ?_⟩
          rw [node?_put (ne_nil_of_node? (by rw [hother]; simp)),
            node?_erase (ne_nil_of_node? (by rw [hfile]; simp)), hnode]
        · next contents hfile hother =>
          obtain rfl := Except.ok.inj hchange
          refine ⟨source, target, contents, locate_congr hsame hsource, htarget', hnode ▸ hfile,
            fun q => ?_⟩
          rw [node?_put (ne_nil_of_node? (by rw [hother]; simp)),
            node?_erase (ne_nil_of_node? (by rw [hfile]; simp)), hnode]
        · contradiction
        · contradiction
        · contradiction
  · contradiction

/-- A file gets a new path, or nothing changes. -/
theorem rename_cases {sourcePath targetPath : String} {fault? : Option IoError}
    (h : fs.rename sourcePath targetPath = (fs', fault?)) :
    fs'.node? = fs.node? ∨ ∃ source target contents,
      fs.locate sourcePath = .ok source ∧ fs.locate targetPath = .ok target ∧
      fs.node? source = some (.file contents) ∧
      ∀ q, fs'.node? q =
        if q = target then some (.file contents) else if q = source then none else fs.node? q := by
  cases fault? with
  | some fault => exact Or.inl (attempt_of_fault h)
  | none => exact Or.inr (nodes_rename h)

/-- The root is no file that can be opened. -/
theorem openFile_ne_nil {contents : Bytes} (h : (fs.openFile path).2 = .ok (place, contents)) :
    place ≠ [] := by
  unfold openFile at h
  split at h
  · contradiction
  · split at h
    · contradiction
    · split at h
      · next hnode =>
        obtain ⟨rfl, -⟩ := Prod.mk.inj (Except.ok.inj h)
        exact ne_nil_of_node? (by rw [hnode]; simp)
      · contradiction
      · next hnode =>
        obtain ⟨rfl, -⟩ := Prod.mk.inj (Except.ok.inj h)
        exact ne_nil_of_node? (by rw [hnode]; simp)

/-! ## Opening files -/

/-- Opening a file creates it, if there is none, and leaves the rest of the tree alone. -/
theorem node?_openFile {contents : Bytes} (hopen : (fs.openFile path).2 = .ok (place, contents)) :
    fs.locateFile path .isADirectory = .ok place ∧ fs.node? place ≠ some .directory ∧
      ∀ q, (fs.openFile path).1.node? q =
        if q = place then some (.file contents) else fs.node? q := by
  have hnode := node?_next fs
  unfold openFile at hopen ⊢
  generalize fs.next = first at hopen hnode ⊢
  obtain ⟨fs₁, refused?⟩ := first
  cases refused? with
  | some fault => contradiction
  | none =>
    dsimp only at hopen hnode ⊢
    cases hlocate : fs₁.locateFile path .isADirectory with
    | error cause =>
      rw [hlocate] at hopen
      contradiction
    | ok place' =>
      rw [hlocate] at hopen
      dsimp only at hopen ⊢
      have hlocated : fs.locateFile path .isADirectory = .ok place' :=
        locateFile_congr (sameDirectories_of_node? hnode).symm hlocate
      rw [hnode] at hopen ⊢
      cases hfound : fs.node? place' with
      | none =>
        rw [hfound] at hopen
        obtain ⟨rfl, rfl⟩ := Prod.mk.inj (Except.ok.inj hopen)
        have hnode' : fs.node? place' ≠ some .directory := by rw [hfound]; simp
        refine ⟨hlocated, hnode', fun q => ?_⟩
        dsimp only
        rw [node?_put (ne_nil_of_node? hnode'), hnode]
      | some node =>
        rw [hfound] at hopen
        cases node with
        | directory => contradiction
        | file contents' =>
          obtain ⟨rfl, rfl⟩ := Prod.mk.inj (Except.ok.inj hopen)
          refine ⟨hlocated, by rw [hfound]; simp, fun q => ?_⟩
          dsimp only
          rw [hnode]
          by_cases hq : q = place'
          · rw [if_pos hq, hq, hfound]
          · rw [if_neg hq]

/-- To open a file makes no directory. -/
theorem sameDirectories_openFile {contents : Bytes}
    (hopen : (fs.openFile path).2 = .ok (place, contents)) :
    SameDirectories fs (fs.openFile path).1 := by
  obtain ⟨-, hnode, hnodes⟩ := node?_openFile hopen
  intro q
  rw [hnodes]
  by_cases hq : q = place
  · simp [hq, hnode]
  · rw [if_neg hq]

/-- A file that cannot be opened is not touched. -/
theorem openFile_of_error {cause : IoError} (h : (fs.openFile path).2 = .error cause) :
    (fs.openFile path).1.node? = fs.node? := by
  have hnode := node?_next fs
  unfold openFile at h ⊢
  generalize fs.next = first at h hnode ⊢
  obtain ⟨fs₁, refused?⟩ := first
  cases refused? with
  | some fault => exact hnode
  | none =>
    dsimp only at h hnode ⊢
    split at h
    · exact hnode
    · split at h
      · contradiction
      · exact hnode
      · contradiction

/-- To open a file brings no faults. -/
theorem openFile_reliable (h : fs.Reliable) (path : String) : (fs.openFile path).1.Reliable := by
  obtain ⟨fs₁, hnext, hreliable, -⟩ := h.next
  unfold openFile
  rw [hnext]
  dsimp only
  split
  · exact hreliable
  · split <;> exact hreliable

/-! ## Directories -/

/-- The second tree has the nodes of the first, and perhaps more directories. -/
structure AddsDirectories (fs fs' : FileSystem) : Prop where
  reliable : fs.Reliable → fs'.Reliable
  node?_eq : ∀ q, fs'.node? q = fs.node? q ∨
    (fs.node? q = none ∧ fs'.node? q = some .directory)

theorem AddsDirectories.refl (fs : FileSystem) : AddsDirectories fs fs :=
  ⟨id, fun _ => Or.inl rfl⟩

theorem AddsDirectories.trans {fs'' : FileSystem} (h : AddsDirectories fs fs')
    (h' : AddsDirectories fs' fs'') : AddsDirectories fs fs'' := by
  refine ⟨fun hreliable => h'.reliable (h.reliable hreliable), fun q => ?_⟩
  rcases h.node?_eq q with heq | ⟨hnone, hdirectory⟩
  · rcases h'.node?_eq q with heq' | ⟨hnone', hdirectory'⟩
    · exact Or.inl (heq'.trans heq)
    · exact Or.inr ⟨by rw [← heq, hnone'], hdirectory'⟩
  · rcases h'.node?_eq q with heq' | ⟨hnone', -⟩
    · exact Or.inr ⟨hnone, heq'.trans hdirectory⟩
    · rw [hdirectory] at hnone'
      contradiction

/-- Nodes that were there stay as they are. -/
theorem AddsDirectories.node?_of_some (h : AddsDirectories fs fs') {node : Node}
    (hnode : fs.node? q = some node) : fs'.node? q = some node := by
  rcases h.node?_eq q with heq | ⟨hnone, -⟩
  · rw [heq, hnode]
  · rw [hnode] at hnone
    contradiction

/-- To make a directory adds one. -/
theorem makeDirectory_adds {names : List String} (h : fs.makeDirectory names = .ok fs') :
    AddsDirectories fs fs' := by
  unfold makeDirectory at h
  simp only [bind, Except.bind, pure, Except.pure, throw, throwThe, MonadExceptOf.throw] at h
  split at h
  · split at h <;> contradiction
  · split at h
    · contradiction
    · next place _ =>
      split at h
      · contradiction
      · next hnone =>
        obtain rfl := Except.ok.inj h
        have hnone : fs.node? place = none := by simpa using hnone
        refine ⟨fun hreliable => hreliable, fun q => ?_⟩
        rw [node?_put (ne_nil_of_node? (by rw [hnone]; simp))]
        by_cases hq : q = place
        · subst hq
          exact Or.inr ⟨hnone, if_pos rfl⟩
        · exact Or.inl (if_neg hq)

/-- To make or keep a directory adds at most one. -/
theorem makeOrKeep_adds {names : List String} (h : fs.makeOrKeep names = .ok fs') :
    AddsDirectories fs fs' := by
  unfold makeOrKeep at h
  split at h
  · next hmake =>
    obtain rfl := Except.ok.inj h
    exact makeDirectory_adds hmake
  · split at h
    · obtain rfl := Except.ok.inj h
      exact AddsDirectories.refl _
    · contradiction

theorem makeAbove_adds {waiting waiting' above : List (List String)}
    (h : fs.makeAbove waiting above = .ok (fs', waiting')) : AddsDirectories fs fs' := by
  induction above generalizing waiting with
  | nil =>
    obtain ⟨rfl, -⟩ := Prod.mk.inj (Except.ok.inj h)
    exact AddsDirectories.refl _
  | cons names above ih =>
    rw [makeAbove] at h
    split at h
    · next hmake =>
      obtain ⟨rfl, -⟩ := Prod.mk.inj (Except.ok.inj h)
      exact makeOrKeep_adds hmake
    · exact ih h
    · contradiction

theorem makeAll_adds (fs : FileSystem) (waiting : List (List String)) :
    AddsDirectories fs (fs.makeAll waiting).1 := by
  induction waiting generalizing fs with
  | nil => exact AddsDirectories.refl _
  | cons names waiting ih =>
    rw [makeAll]
    split
    · next hmake => exact (makeOrKeep_adds hmake).trans (ih _)
    · exact AddsDirectories.refl _

/-- Making a directory adds directories, whether it succeeds or not. -/
theorem createDirectory_adds (fs : FileSystem) (path : String) :
    AddsDirectories fs (fs.createDirectory path).1 := by
  have hfirst : AddsDirectories fs fs.next.1 := by
    refine ⟨fun hreliable => ?_, fun q => Or.inl (by rw [node?_next])⟩
    obtain ⟨fs₁, hnext, hreliable₁, -⟩ := hreliable.next
    rw [hnext]
    exact hreliable₁
  unfold createDirectory
  generalize fs.next = first at hfirst
  obtain ⟨fs₁, refused?⟩ := first
  cases refused? with
  | some fault => exact hfirst
  | none =>
    dsimp only at hfirst ⊢
    split
    · exact hfirst
    · split
      · exact hfirst
      · split
        · exact hfirst
        · next habove => exact hfirst.trans ((makeAbove_adds habove).trans (makeAll_adds _ _))

end SegmentedDownload.FileSystem
