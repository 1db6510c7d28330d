import Mathlib
import SegmentedDownload.Document.Config
import SegmentedDownload.Proofs.EndToEnd
import SegmentedDownload.Proofs.JsonText

/-!
# SegmentedDownload.Proofs.ConfigDocument

A configuration that is saved is loaded again as it was.

The reader of a record collects the fields in a draft, whatever their order, so the proof says what
the draft holds after some members: exactly the fields of the configuration that were named so far
(`Draft.of`).  A member adds its own name to these (`readMember_field`), or is passed over
(`readMember_other`).  In the end the draft is completed with default values for the names that
never came (`complete_of`).

The general part is `Json.Collects`, which says that some members lead from one draft to another,
and `Json.readRecord_object`.
-/

namespace SegmentedDownload

/-! ## Records -/

namespace Json

variable {δ α : Type} {fields : List (Field δ)} {draft draft' : δ}
  {members : List (String × Value)}

/-- The members of an object, one after the other, lead from one draft to another. -/
inductive Collects (fields : List (Field δ)) : δ → List (String × Value) → δ → Prop
  | nil (draft : δ) : Collects fields draft [] draft
  | cons {draft draft₁ draft' : δ} {key : String} {value : Value}
      {members : List (String × Value)}
      (hmember : ∀ rest, readMember fields draft key (.colon :: (value.tokens ++ rest)) =
        .ok (draft₁, rest))
      (hmembers : Collects fields draft₁ members draft') :
      Collects fields draft ((key, value) :: members) draft'

/-- Every member has a token of its own, so there is fuel for all of them. -/
theorem length_le_laterTokens (members : List (String × Value)) :
    members.length ≤ (laterTokens members).length := by
  induction members with
  | nil => exact le_rfl
  | cons member members ih =>
    simp only [laterTokens, List.length_append, List.length_cons]
    omega

/-- The members behind the first one. -/
theorem Collects.later (h : Collects fields draft members draft') {fuel : Nat}
    (hfuel : members.length < fuel) (rest : List Token) :
    readMembers fields fuel false draft (laterTokens members ++ .closeObject :: rest) =
      .ok (draft', .closeObject :: rest) := by
  induction h generalizing fuel with
  | nil draft =>
    cases fuel with
    | zero => contradiction
    | succ fuel => rfl
  | cons hmember _ ih =>
    cases fuel with
    | zero => contradiction
    | succ fuel =>
      simp only [laterTokens, memberTokens, List.cons_append, List.append_assoc]
      rw [readMembers]
      change (readMember _ _ _ _ >>= _) = _
      rw [hmember]
      exact ih (Nat.lt_of_succ_lt_succ hfuel)

/-- All members of an object, up to its closing brace. -/
theorem Collects.all (h : Collects fields draft members draft') {fuel : Nat}
    (hfuel : members.length < fuel) (rest : List Token) :
    readMembers fields fuel true draft
        ((Value.object members).tokens.tail ++ rest) =
      .ok (draft', .closeObject :: rest) := by
  cases h with
  | nil draft =>
    cases fuel with
    | zero => contradiction
    | succ fuel => rfl
  | cons hmember hmembers =>
    cases fuel with
    | zero => contradiction
    | succ fuel =>
      simp only [Value.tokens, memberTokens, List.cons_append, List.append_assoc, List.tail_cons,
        List.nil_append]
      rw [readMembers]
      change (readMember _ _ _ _ >>= _) = _
      rw [hmember]
      exact hmembers.later (Nat.lt_of_succ_lt_succ hfuel) rest

theorem length_lt_tokens (members : List (String × Value)) :
    members.length < (Value.object members).tokens.length := by
  cases members with
  | nil => exact Nat.zero_lt_two
  | cons member members =>
    have hle := length_le_laterTokens members
    simp only [Value.tokens, List.length_append, List.length_cons, List.length_nil]
    omega

/-- An object whose members lead to a draft with all required fields is read as that draft. -/
theorem Collects.record (h : Collects fields draft members draft')
    (hmissing : missing? fields draft' = none) (wanted : String) (rest : List Token) :
    readRecord wanted fields draft ((Value.object members).tokens ++ rest) =
      .ok (draft', rest) := by
  have hopen : (Value.object members).tokens =
      .openObject :: (Value.object members).tokens.tail := by
    cases members <;> rfl
  have hfuel := length_lt_tokens members
  rw [hopen, List.length_cons] at hfuel
  rw [hopen, List.cons_append]
  change readObject _ _ _ = _
  unfold readObject
  rw [h.all (by rw [List.length_append]; omega) rest]
  dsimp only [bind, Except.bind]
  rw [hmissing]
  rfl

/-- A member is read into its field, if this was not set before. -/
theorem readMember_known {name : String} {field : Field δ} {ts rest : List Token}
    (hfind : fields.find? (·.name == name) = some field) (hfree : field.isSet draft = false)
    (hread : field.read draft ts = .ok (draft', rest)) :
    readMember fields draft name (.colon :: ts) = .ok (draft', rest) := by
  simp only [readMember, hfind, hfree, Bool.false_eq_true, if_false]
  exact hread

/-- A member with an unknown name and a text is passed over. -/
theorem readMember_unknown {name text : String} (hname : ∀ field ∈ fields, field.name ≠ name)
    (rest : List Token) :
    readMember fields draft name (.colon :: .text (.ok text) none :: rest) =
      .ok (draft, rest) := by
  have hfind : fields.find? (·.name == name) = none := by
    simpa using hname
  simp [readMember, hfind, readColon, skipValue, pass, Care.fault?, bind, Except.bind, pure,
    Except.pure]

section Scalars

variable {n : Nat} (rest : List Token)

@[simp] theorem readText_text (wanted text : String) :
    readText wanted ((Value.text text).tokens ++ rest) = .ok (text, rest) := by
  simp [Value.tokens, readText]

@[simp] theorem readBoolean_boolean (b : Bool) :
    readBoolean ((Value.boolean b).tokens ++ rest) = .ok (b, rest) := by
  simp [Value.tokens, readBoolean]

/-- A number that fits in eight bytes is read back. -/
theorem readUnsigned_integer (hn : n ≤ 18446744073709551615) :
    readUnsigned ((Value.integer n).tokens ++ rest) = .ok (n, rest) := by
  have hbounds : (0 : Int) ≤ n ∧ (n : Int) ≤ 18446744073709551615 := by omega
  simp [readUnsigned, Value.tokens, readInteger, hbounds, Except.map]

/-- A number that fits in four bytes is read back. -/
theorem readHalf_integer (hn : n ≤ 4294967295) :
    readHalf ((Value.integer n).tokens ++ rest) = .ok (n, rest) := by
  have hbounds : (0 : Int) ≤ n ∧ (n : Int) ≤ 4294967295 := by omega
  simp [readHalf, Value.tokens, readInteger, hbounds, Except.map]

end Scalars

end Json

namespace Config

/-! ## Members -/

/-- The fields of a configuration with their values. -/
def members (c : Config) : List (String × Json.Value) :=
  match c.toJson with
  | .object members => members
  | _ => []

def names : List String := Draft.fields.map (·.name)

/-- The names of the fields with a default value. -/
def optionalNames : List String := (Draft.fields.filter (!·.required)).map (·.name)

example : names = ["url", "directory", "base_name", "extension", "worker_count", "resume",
    "expected_hash", "connect_timeout_ms", "read_timeout_ms", "ca_bundle",
    "progress_interval_ms"] ∧ names.filter (· ∉ optionalNames) = ["url", "base_name"] := by
  decide

/-- The fields of a configuration except some. -/
def membersWithout (c : Config) (missing : List String) : List (String × Json.Value) :=
  c.members.filter (·.1 ∉ missing)

/-- A member that is no field of a configuration, with a text. -/
def Unknown (member : String × Json.Value) : Prop :=
  member.1 ∉ names ∧ ∃ text, member.2 = .text text

/-- The configuration with default values in place of some fields, on a system that may have a
directory for downloads. -/
def reset (c : Config) (downloads? : Option String) (missing : List String) : Config :=
  let plain := empty downloads?
  { c with
    directory := if "directory" ∈ missing then plain.directory else c.directory
    extension := if "extension" ∈ missing then plain.extension else c.extension
    workers := if "worker_count" ∈ missing then plain.workers else c.workers
    resume := if "resume" ∈ missing then plain.resume else c.resume
    expectedHash? := if "expected_hash" ∈ missing then plain.expectedHash? else c.expectedHash?
    connectTimeout :=
      if "connect_timeout_ms" ∈ missing then plain.connectTimeout else c.connectTimeout
    readTimeout := if "read_timeout_ms" ∈ missing then plain.readTimeout else c.readTimeout
    certificates? := if "ca_bundle" ∈ missing then plain.certificates? else c.certificates?
    progressInterval :=
      if "progress_interval_ms" ∈ missing then plain.progressInterval else c.progressInterval }

/-- The numbers of a configuration fit in their words. -/
structure Fits (c : Config) : Prop where
  workers : c.workers ≤ 4294967295
  connectTimeout : c.connectTimeout ≤ 18446744073709551615
  readTimeout : c.readTimeout ≤ 18446744073709551615
  progressInterval : c.progressInterval ≤ 18446744073709551615

variable {c : Config} {downloads? : Option String} {named named' missing : List String}

theorem map_members (c : Config) : c.members.map (·.1) = names := rfl

theorem reset_nil (c : Config) (downloads? : Option String) : c.reset downloads? [] = c := rfl

/-- There is a default directory, unless the system names an empty one. -/
theorem defaultDirectory_ne_empty (h : downloads? ≠ some "") :
    defaultDirectory downloads? ≠ "" := by
  cases downloads? with
  | none => decide
  | some directory =>
    rintro rfl
    exact h rfl

/-- Default values are valid, if the system names a directory for downloads that can be one. -/
theorem validate_reset (h : c.validate = .ok ())
    (hdownloads : "directory" ∈ missing → downloads? ≠ some "") :
    (c.reset downloads? missing).validate = .ok () := by
  obtain ⟨hurl, hdirectory, hname, hworkers, hhash⟩ := validate_ok h
  refine validate_of hurl ?_ hname ?_ ?_
  · dsimp only [reset]
    split
    · next hmissing => exact defaultDirectory_ne_empty (hdownloads hmissing)
    · exact hdirectory
  · dsimp only [reset]
    split
    · exact Nat.succ_ne_zero 3
    · exact hworkers
  · dsimp only [reset]
    split
    · rfl
    · exact hhash

/-! ## Drafts -/

/-- What was read of a configuration when some names have come. -/
def Draft.of (c : Config) (named : List String) : Draft where
  url? := if "url" ∈ named then some c.url else none
  directory? := if "directory" ∈ named then some c.directory else none
  baseName? := if "base_name" ∈ named then some c.baseName else none
  extension? := if "extension" ∈ named then some c.extension else none
  workers? := if "worker_count" ∈ named then some c.workers else none
  resume? := if "resume" ∈ named then some c.resume else none
  expectedHash? := if "expected_hash" ∈ named then some c.expectedHash? else none
  connectTimeout? := if "connect_timeout_ms" ∈ named then some c.connectTimeout else none
  readTimeout? := if "read_timeout_ms" ∈ named then some c.readTimeout else none
  certificates? := if "ca_bundle" ∈ named then some c.certificates? else none
  progressInterval? := if "progress_interval_ms" ∈ named then some c.progressInterval else none

/-- Other names do not count. -/
theorem Draft.of_congr (h : ∀ name ∈ names, (name ∈ named ↔ name ∈ named')) :
    Draft.of c named = Draft.of c named' := by
  simp only [names, Draft.fields, Json.Field.of, List.map_cons, List.map_nil,
    List.forall_mem_cons] at h
  simp only [Draft.of, h]

/-- Nothing is missing when the URL and the base name have come. -/
theorem Draft.missing?_of (hurl : "url" ∈ named) (hname : "base_name" ∈ named) :
    Json.missing? Draft.fields (Draft.of c named) = none := by
  simp [Json.missing?, Draft.fields, Draft.of, Json.Field.of, hurl, hname]

/-- A value that is there only without a default. -/
theorem getD_ite {α : Type} {p : Prop} [Decidable p] (a default : α) :
    (if ¬p then some a else none).getD default = if p then default else a := by
  by_cases hp : p
  · rw [if_neg (not_not_intro hp), if_pos hp, Option.getD_none]
  · rw [if_pos hp, if_neg hp, Option.getD_some]

/-- The names that never came get their default values. -/
theorem Draft.complete_of (h : ∀ name ∈ names, (name ∈ named ↔ name ∉ missing))
    (hurl : "url" ∈ named) (hname : "base_name" ∈ named) :
    (Draft.of c named).complete downloads? = c.reset downloads? missing := by
  simp only [names, Draft.fields, Json.Field.of, List.map_cons, List.map_nil,
    List.forall_mem_cons] at h
  obtain ⟨-, hdirectory, -, hextension, hworkers, hresume, hhash, hconnect, hread, hbundle,
    hinterval, -⟩ := h
  simp only [Draft.of, Draft.complete, reset, hurl, hname, hdirectory, hextension, hworkers,
    hresume, hhash, hconnect, hread, hbundle, hinterval, getD_ite, if_true, Option.getD_some]

/-- A text that may be missing is read back, missing or not. -/
@[simp] theorem readOptional_text (wanted : String) (text? : Option String)
    (rest : List Json.Token) :
    Json.readOptional (Json.readText wanted) ((optionalText text?).tokens ++ rest) =
      .ok (text?, rest) := by
  cases text? <;> rfl

/-- A field is read into the draft if its name has not come before. -/
theorem readMember_field (hfits : c.Fits) {member : String × Json.Value}
    (hmember : member ∈ c.members) (hnew : member.1 ∉ named) (rest : List Json.Token) :
    Json.readMember Draft.fields (Draft.of c named) member.1
        (.colon :: (member.2.tokens ++ rest)) =
      .ok (Draft.of c (member.1 :: named), rest) := by
  simp only [members, toJson, List.mem_cons, List.not_mem_nil, or_false] at hmember
  have hworkers := fun rest => Json.readHalf_integer rest hfits.workers
  have hconnect := fun rest => Json.readUnsigned_integer rest hfits.connectTimeout
  have hread := fun rest => Json.readUnsigned_integer rest hfits.readTimeout
  have hinterval := fun rest => Json.readUnsigned_integer rest hfits.progressInterval
  obtain rfl | rfl | rfl | rfl | rfl | rfl | rfl | rfl | rfl | rfl | rfl := hmember
  -- every field is found under its own name, is free, and is set to what is read
  all_goals
    dsimp only at hnew ⊢
    refine Json.readMember_known rfl ?_ ?_
    · simp [Json.Field.of, Draft.of, hnew]
    · simp [Json.Field.of, Draft.of, hworkers, hconnect, hread, hinterval, Except.map]

/-- A member that is no field is passed over. -/
theorem readMember_other {member : String × Json.Value} (hmember : Unknown member)
    (rest : List Json.Token) :
    Json.readMember Draft.fields (Draft.of c named) member.1
        (.colon :: (member.2.tokens ++ rest)) =
      .ok (Draft.of c (member.1 :: named), rest) := by
  obtain ⟨name, value⟩ := member
  obtain ⟨hname, text, rfl⟩ := hmember
  have hsame : Draft.of c (name :: named) = Draft.of c named := by
    refine Draft.of_congr fun other hother => ?_
    rw [List.mem_cons, or_iff_right]
    rintro rfl
    exact hname hother
  have hfields : ∀ field ∈ Draft.fields, field.name ≠ name := by
    rintro field hfield rfl
    exact hname (List.mem_map_of_mem hfield)
  rw [hsame]
  exact Json.readMember_unknown hfields rest

/-- Members in any order, no field of which comes twice, are collected in the draft. -/
theorem collects_of (hfits : c.Fits) {members : List (String × Json.Value)}
    (hmembers : ∀ member ∈ members, member ∈ c.members ∨ Unknown member)
    (hnew : ∀ member ∈ members, member ∈ c.members → member.1 ∉ named)
    (honce : members.Pairwise fun a b => b ∈ c.members → a.1 ≠ b.1) :
    ∃ named', Json.Collects Draft.fields (Draft.of c named) members (Draft.of c named') ∧
      ∀ name, name ∈ named' ↔ name ∈ named ∨ name ∈ members.map (·.1) := by
  induction members generalizing named with
  | nil => exact ⟨named, .nil _, by simp⟩
  | cons member members ih =>
    obtain ⟨hmember, hmembers⟩ := List.forall_mem_cons.mp hmembers
    obtain ⟨hfirst, honce⟩ := List.pairwise_cons.mp honce
    have hread : ∀ rest, Json.readMember Draft.fields (Draft.of c named) member.1
        (.colon :: (member.2.tokens ++ rest)) = .ok (Draft.of c (member.1 :: named), rest) := by
      intro rest
      rcases hmember with hfield | hunknown
      · exact readMember_field hfits hfield (hnew _ List.mem_cons_self hfield) rest
      · exact readMember_other hunknown rest
    have hnew' : ∀ b ∈ members, b ∈ c.members → b.1 ∉ member.1 :: named := by
      intro b hb hfield
      rw [List.mem_cons, not_or]
      exact ⟨(hfirst b hb hfield).symm, hnew b (List.mem_cons_of_mem _ hb) hfield⟩
    obtain ⟨named', hcollects, hnamed'⟩ := ih hmembers hnew' honce
    refine ⟨named', .cons hread hcollects, fun name => ?_⟩
    rw [hnamed', List.mem_cons, List.map_cons, List.mem_cons]
    tauto

/-! ## Documents -/

section Document

variable {extras members : List (String × Json.Value)}

/-- The members of a configuration have the names of its fields. -/
theorem fst_mem_names {member : String × Json.Value} (h : member ∈ c.members) :
    member.1 ∈ names :=
  map_members c ▸ List.mem_map_of_mem h

theorem nodup_names : names.Nodup := by decide

/-- No field comes twice, whatever the order. -/
theorem pairwise_ne (hextras : ∀ member ∈ extras, Unknown member)
    (hperm : members.Perm (c.membersWithout missing ++ extras)) :
    members.Pairwise fun a b => b ∈ c.members → a.1 ≠ b.1 := by
  have hfields : c.members.Pairwise fun a b => a.1 ≠ b.1 := by
    have hnodup := nodup_names
    rw [← map_members c] at hnodup
    exact List.pairwise_map.mp hnodup
  have hall : (c.membersWithout missing ++ extras).Pairwise fun a b =>
      a ∈ c.members ∨ b ∈ c.members → a.1 ≠ b.1 := by
    refine List.pairwise_append.mpr ⟨?_, ?_, ?_⟩
    · have hkept : (c.membersWithout missing).Pairwise fun a b => a.1 ≠ b.1 :=
        hfields.sublist List.filter_sublist
      refine hkept.imp ?_
      intro a b hne _
      exact hne
    · refine List.pairwise_of_forall_mem_list fun a ha b hb hfield => ?_
      rcases hfield with hfield | hfield
      · exact absurd (fst_mem_names hfield) (hextras a ha).1
      · exact absurd (fst_mem_names hfield) (hextras b hb).1
    · intro a ha b hb _ heq
      have ha' := fst_mem_names (List.mem_filter.mp ha).1
      exact (hextras b hb).1 (heq ▸ ha')
  have hsymm : ∀ a b : String × Json.Value, (a ∈ c.members ∨ b ∈ c.members → a.1 ≠ b.1) →
      (b ∈ c.members ∨ a ∈ c.members → b.1 ≠ a.1) := fun a b h hfield => (h hfield.symm).symm
  exact (hperm.symm.pairwise hall (@hsymm)).imp fun h hfield => h (Or.inr hfield)

/-- The names in a document are those of the fields that are not missing, and others. -/
theorem mem_names_iff (hextras : ∀ member ∈ extras, Unknown member)
    (hperm : members.Perm (c.membersWithout missing ++ extras)) {name : String}
    (hname : name ∈ names) : name ∈ members.map (·.1) ↔ name ∉ missing := by
  rw [(hperm.map _).mem_iff, List.map_append, List.mem_append]
  constructor
  · rintro (hkept | hextra)
    · obtain ⟨member, hmember, rfl⟩ := List.mem_map.mp hkept
      simpa using (List.mem_filter.mp hmember).2
    · obtain ⟨member, hmember, rfl⟩ := List.mem_map.mp hextra
      exact absurd hname (hextras member hmember).1
  · intro hkept
    rw [← map_members c] at hname
    obtain ⟨member, hmember, rfl⟩ := List.mem_map.mp hname
    exact Or.inl (List.mem_map_of_mem (List.mem_filter.mpr ⟨hmember, by simpa using hkept⟩))

/-- A document of some fields is read as the configuration with default values for the others. -/
theorem ofJson_object (hfits : c.Fits) (hmissing : missing ⊆ optionalNames)
    (hextras : ∀ member ∈ extras, Unknown member)
    (hperm : members.Perm (c.membersWithout missing ++ extras)) {text : String}
    (htext : Json.Denotes text (.object members)) :
    ofJson text downloads? = .ok (c.reset downloads? missing) := by
  have hmembers : ∀ member ∈ members, member ∈ c.members ∨ Unknown member := by
    intro member hmember
    rcases List.mem_append.mp (hperm.mem_iff.mp hmember) with hkept | hextra
    · exact Or.inl (List.mem_filter.mp hkept).1
    · exact Or.inr (hextras member hextra)
  obtain ⟨named, hcollects, hnamed⟩ := @collects_of c [] hfits members hmembers
    (fun _ _ _ => List.not_mem_nil) (pairwise_ne hextras hperm)
  have hiff : ∀ name ∈ names, (name ∈ named ↔ name ∉ missing) := by
    intro name hname
    rw [hnamed, ← mem_names_iff hextras hperm hname]
    simp
  have hrequired : ∀ name ∈ names, name ∉ optionalNames → name ∈ named := fun name hname hnot =>
    (hiff name hname).mpr fun hmem => hnot (hmissing hmem)
  have hurl : "url" ∈ named := hrequired _ (by decide) (by decide)
  have hname : "base_name" ∈ named := hrequired _ (by decide) (by decide)
  have hread := hcollects.record (Draft.missing?_of hurl hname) "struct TransferConfig" []
  rw [List.append_nil, ← show Json.tokens text = _ from htext] at hread
  have hempty : Draft.of c [] = {} := rfl
  unfold ofJson Json.readAll read
  rw [← hempty, hread, ← Draft.complete_of hiff hurl hname]
  rfl

/-- A valid configuration is loaded from a document that is read as such. -/
theorem load_ofText {path text : String} {c : Config} (h : ofJson text downloads? = .ok c)
    (hvalid : c.validate = .ok ()) : load path (.ok (Bytes.ofText text)) downloads? = .ok c := by
  simp only [load, Bytes.toText?_ofText, h, hvalid]

theorem membersWithout_nil (c : Config) : c.membersWithout [] = c.members := by
  simp [membersWithout]

/-- The values of a configuration can be written. -/
theorem Fits.member (h : c.Fits) {member : String × Json.Value} (hmember : member ∈ c.members) :
    member.2.Fits := by
  have hinteger : ∀ n : Nat, n ≤ 18446744073709551615 → (Json.Value.integer n).Fits :=
    fun n hn => .integer n (by omega) (by omega)
  have hoptional : ∀ text? : Option String, (optionalText text?).Fits := by
    intro text?
    cases text? with
    | none => exact .null
    | some text => exact .text text
  simp only [members, toJson, List.mem_cons, List.not_mem_nil, or_false] at hmember
  obtain rfl | rfl | rfl | rfl | rfl | rfl | rfl | rfl | rfl | rfl | rfl := hmember
  · exact .text _
  · exact .text _
  · exact .text _
  · exact .text _
  · exact hinteger _ (h.workers.trans (by decide))
  · exact .boolean _
  · exact hoptional _
  · exact hinteger _ h.connectTimeout
  · exact hinteger _ h.readTimeout
  · exact hoptional _
  · exact hinteger _ h.progressInterval

theorem Fits.object (h : c.Fits) (hextras : ∀ member ∈ extras, Unknown member)
    (hperm : members.Perm (c.membersWithout missing ++ extras)) :
    (Json.Value.object members).Fits := by
  refine .object members fun member hmember => ?_
  rcases List.mem_append.mp (hperm.mem_iff.mp hmember) with hkept | hextra
  · exact h.member (List.mem_filter.mp hkept).1
  · obtain ⟨-, text, htext⟩ := hextras member hextra
    rw [htext]
    exact .text text

/-- A document of some fields of a valid configuration is loaded, however it is written. -/
theorem load_object (hvalid : c.validate = .ok ()) (hfits : c.Fits)
    (hmissing : missing ⊆ optionalNames) (hdownloads : "directory" ∈ missing → downloads? ≠ some "")
    (hextras : ∀ member ∈ extras, Unknown member)
    (hperm : members.Perm (c.membersWithout missing ++ extras)) {text : String}
    (htext : Json.Denotes text (.object members)) (path : String) :
    load path (.ok (Bytes.ofText text)) downloads? = .ok (c.reset downloads? missing) :=
  load_ofText (ofJson_object hfits hmissing hextras hperm htext) (validate_reset hvalid hdownloads)

/-- **Configurations survive their documents.**  A valid configuration that was saved is loaded as
it was.  A document of only some of its fields, in any order and among other members, is loaded as
the configuration with default values for the fields that are missing, however it is written.

The default directory is that of the system for downloads.  Where a system has one, its path is
not empty. -/
theorem load_document (hvalid : c.validate = .ok ()) (hfits : c.Fits) (path : String)
    (downloads? : Option String) :
    load path (.ok c.save) downloads? = .ok c ∧
      ∀ (missing : List String) (extras members : List (String × Json.Value)),
        missing ⊆ optionalNames → ("directory" ∈ missing → downloads? ≠ some "") →
        (∀ member ∈ extras, Unknown member) →
        members.Perm (c.membersWithout missing ++ extras) →
          (∀ layout, Json.Denotes (String.ofList (Json.write layout (.object members)))
            (.object members)) ∧
          ∀ text, Json.Denotes text (.object members) →
            load path (.ok (Bytes.ofText text)) downloads? = .ok (c.reset downloads? missing) := by
  refine ⟨?_, fun missing extras members hmissing hdownloads hextras hperm =>
    ⟨Json.denotes_write (hfits.object hextras hperm), fun text htext =>
      load_object hvalid hfits hmissing hdownloads hextras hperm htext path⟩⟩
  have hperm : c.members.Perm (c.membersWithout [] ++ []) := by
    rw [membersWithout_nil, List.append_nil]
  have hobject : c.toJson.Fits := hfits.object (by simp) hperm
  rw [← reset_nil c downloads?]
  exact load_object hvalid hfits (List.nil_subset _) nofun (by simp) hperm
    (Json.denotes_write hobject (.spread 0)) path

/-- A configuration with texts that need escapes, and with the largest numbers. -/
def extreme : Config where
  url := "http://a/b"
  directory := "d \"\\\n\x01\u00e9"
  baseName := "b"
  workers := 4294967295
  resume := false
  connectTimeout := 18446744073709551615
  certificates? := some "\t"

/-- The members of a document from which `extreme` gets its other fields by default. -/
def sparse : List (String × Json.Value) :=
  [("note", .text "\n"), ("worker_count", .integer 4294967295), ("base_name", .text "b"),
   ("url", .text "http://a/b")]

theorem load_document_extreme :
    load "c" (.ok extreme.save) (some "/home/u/Downloads") = .ok extreme ∧
      load "c" (.ok (Bytes.ofText (String.ofList (Json.write .compact (.object sparse)))))
          (some "/home/u/Downloads") =
        .ok { url := "http://a/b", directory := "/home/u/Downloads", baseName := "b",
              workers := 4294967295 } ∧
      load "c" (.ok (Bytes.ofText (String.ofList (Json.write .compact (.object sparse))))) none =
        .ok { url := "http://a/b", directory := ".", baseName := "b", workers := 4294967295 } := by
  have hvalid : extreme.validate = .ok () := by decide +kernel
  have hfits : extreme.Fits := ⟨by decide, by decide, by decide, by decide⟩
  have hunknown : ∀ member ∈ [("note", Json.Value.text "\n")], Unknown member := by
    simpa [Unknown] using (by decide : "note" ∉ names)
  have hperm : sparse.Perm (extreme.membersWithout ["directory", "extension", "resume",
      "expected_hash", "connect_timeout_ms", "read_timeout_ms", "ca_bundle",
      "progress_interval_ms"] ++ [("note", .text "\n")]) := (List.reverse_perm sparse).symm
  obtain ⟨hround, hload⟩ := load_document hvalid hfits "c" (some "/home/u/Downloads")
  obtain ⟨hwritten, hread⟩ := hload _ _ _ (by decide) (fun _ => by decide) hunknown hperm
  obtain ⟨-, hread'⟩ :=
    (load_document hvalid hfits "c" none).2 _ _ _ (by decide) nofun hunknown hperm
  exact ⟨hround, hread _ (hwritten .compact), hread' _ (hwritten .compact)⟩

end Document

end Config

end SegmentedDownload
