import SegmentedDownload.Url.Path

/-!
# SegmentedDownload.Proofs.Escapes

What percent-encoding does to a text.

* A byte that is neither `%` nor a digit is in the decoded bytes if it was there before,
  or if a group stands for it (`mem_decode`). Digits of one group never belong to
  another, because `%` is no digit.
* `decode_encode`: a segment is decoded to the same bytes whether its reserved characters
  were encoded first or not.
* `plainDots_eq_replicate`: the segments that a path takes for dots are those that are
  decoded to dots.
-/

namespace SegmentedDownload

/-! ## UTF-8 -/

namespace Bytes

/-- The UTF-8 form of characters. -/
def ofChars (s : List Char) : Bytes := s.flatMap String.utf8EncodeChar

theorem ofText_eq (s : String) : ofText s = ofChars s.toList := by
  rw [ofText, String.toUTF8_eq_toByteArray, ← String.utf8Encode_toList, List.utf8Encode]
  exact List.data_toByteArray ▸ rfl

@[simp] theorem ofText_ofList (s : List Char) : ofText (String.ofList s) = ofChars s := by
  rw [ofText_eq, String.toList_ofList]

/-- Bytes that are read as a text are the bytes of that text. -/
theorem toText?_eq_some {data : Bytes} {text : String} (h : toText? data = some text) :
    ofText text = data := by
  unfold toText? String.fromUTF8? at h
  split at h
  · obtain rfl := Option.some.inj h
    rfl
  · contradiction

@[simp] theorem ofChars_nil : ofChars [] = [] := rfl

@[simp] theorem ofChars_cons (c : Char) (s : List Char) :
    ofChars (c :: s) = String.utf8EncodeChar c ++ ofChars s := rfl

@[simp] theorem ofChars_append (s t : List Char) : ofChars (s ++ t) = ofChars s ++ ofChars t :=
  List.flatMap_append

/-- The byte of an ASCII character. -/
def ofAscii (c : Char) : UInt8 := UInt8.ofNat c.toNat

/-- A character below 128 is one byte. -/
theorem utf8EncodeChar_ascii {c : Char} (h : c.toNat < 128) :
    String.utf8EncodeChar c = [ofAscii c] := by
  have hle : c.val.toNat ≤ 127 := Nat.le_of_lt_succ h
  simp only [String.utf8EncodeChar, if_pos hle]
  rfl

/-- The bytes of any other character are no ASCII. -/
theorem le_of_mem_utf8EncodeChar {c : Char} {b : UInt8} (h : 128 ≤ c.toNat)
    (hb : b ∈ String.utf8EncodeChar c) : 128 ≤ b.toNat := by
  have hlarge : ¬ c.val.toNat ≤ 127 := fun hle => absurd h (Nat.not_le.mpr (Nat.lt_succ_of_le hle))
  simp only [String.utf8EncodeChar, if_neg hlarge] at hb
  split at hb
  · simp only [List.mem_cons, List.not_mem_nil, or_false] at hb
    rcases hb with rfl | rfl <;> rw [UInt8.toNat_ofNat'] <;> omega
  · split at hb
    · simp only [List.mem_cons, List.not_mem_nil, or_false] at hb
      rcases hb with rfl | rfl | rfl <;> rw [UInt8.toNat_ofNat'] <;> omega
    · simp only [List.mem_cons, List.not_mem_nil, or_false] at hb
      rcases hb with rfl | rfl | rfl | rfl <;> rw [UInt8.toNat_ofNat'] <;> omega

theorem utf8EncodeChar_eq_cons (c : Char) : ∃ b data, String.utf8EncodeChar c = b :: data := by
  cases h : String.utf8EncodeChar c with
  | nil => simp at h
  | cons b data => exact ⟨b, data, rfl⟩

@[simp] theorem ofChars_eq_nil {s : List Char} : ofChars s = [] ↔ s = [] := by
  cases s with
  | nil => simp
  | cons c s =>
    obtain ⟨b, data, hform⟩ := utf8EncodeChar_eq_cons c
    simp [hform]

/-- Characters below 128 have different bytes. -/
theorem ofAscii_inj {c d : Char} (hc : c.toNat < 128) (hd : d.toNat < 128) :
    ofAscii c = ofAscii d ↔ c = d := by
  refine ⟨fun h => ?_, fun h => h ▸ rfl⟩
  have hnat := congrArg UInt8.toNat h
  rw [ofAscii, ofAscii, UInt8.toNat_ofNat', UInt8.toNat_ofNat', Nat.mod_eq_of_lt (by omega),
    Nat.mod_eq_of_lt (by omega)] at hnat
  exact Char.toNat_inj.mp hnat

/-- The byte of an ASCII character belongs to that character only. -/
theorem ofAscii_mem_utf8EncodeChar {c d : Char} (hc : c.toNat < 128) :
    ofAscii c ∈ String.utf8EncodeChar d ↔ c = d := by
  by_cases hd : d.toNat < 128
  · rw [utf8EncodeChar_ascii hd, List.mem_singleton, ofAscii_inj hc hd]
  · refine ⟨fun h => ?_, fun h => absurd (h ▸ hc) hd⟩
    have hlarge := le_of_mem_utf8EncodeChar (Nat.le_of_not_lt hd) h
    rw [ofAscii, UInt8.toNat_ofNat', Nat.mod_eq_of_lt (by omega)] at hlarge
    omega

/-- The byte of a character below 128 stands for nothing but that character. -/
theorem ofAscii_mem_ofChars {c : Char} (hc : c.toNat < 128) {s : List Char} :
    ofAscii c ∈ ofChars s ↔ c ∈ s := by
  simp [ofChars, List.mem_flatMap, ofAscii_mem_utf8EncodeChar hc]

/-- If the first byte stands for a character, so does the first character. -/
theorem ofChars_eq_cons {c : Char} (hc : c.toNat < 128) {s : List Char} {data : Bytes} :
    ofChars s = ofAscii c :: data ↔ ∃ rest, s = c :: rest ∧ ofChars rest = data := by
  constructor
  · intro h
    cases s with
    | nil => contradiction
    | cons d rest =>
      obtain ⟨b, more, hd⟩ := utf8EncodeChar_eq_cons d
      rw [ofChars_cons, hd, List.cons_append, List.cons.injEq] at h
      have hmem : ofAscii c ∈ String.utf8EncodeChar d := by
        rw [hd, h.1]
        exact List.mem_cons_self
      obtain rfl := (ofAscii_mem_utf8EncodeChar hc).mp hmem
      rw [utf8EncodeChar_ascii hc, List.cons.injEq] at hd
      rw [← hd.2, List.nil_append] at h
      exact ⟨rest, rfl, h.2⟩
  · rintro ⟨rest, rfl, rfl⟩
    rw [ofChars_cons, utf8EncodeChar_ascii hc, List.singleton_append]

theorem ofChars_ascii {s : List Char} (h : ∀ c ∈ s, c.toNat < 128) :
    ofChars s = s.map ofAscii := by
  induction s with
  | nil => rfl
  | cons c s ih =>
    rw [ofChars_cons, utf8EncodeChar_ascii (h c List.mem_cons_self),
      ih fun d hd => h d (List.mem_cons_of_mem _ hd)]
    rfl

/-- A run of ASCII text stands where its bytes do. -/
theorem map_ofAscii_infix_iff {s t : List Char} (hs : ∀ c ∈ s, c.toNat < 128)
    (ht : ∀ c ∈ t, c.toNat < 128) : t.map ofAscii <:+: ofChars s ↔ t <:+: s := by
  rw [ofChars_ascii hs, List.infix_map_iff]
  constructor
  · rintro ⟨u, hu, heq⟩
    suffices t = u from this ▸ hu
    have hmem : ∀ c ∈ u, c.toNat < 128 := fun c hc => hs c (hu.subset hc)
    clear hu
    induction t generalizing u with
    | nil => exact (List.map_eq_nil_iff.mp heq.symm).symm
    | cons c t ih =>
      cases u with
      | nil => simp at heq
      | cons d u =>
        rw [List.map_cons, List.map_cons, List.cons.injEq] at heq
        rw [(ofAscii_inj (ht c List.mem_cons_self) (hmem d List.mem_cons_self)).mp heq.1,
          ih (fun e he => ht e (List.mem_cons_of_mem _ he)) u heq.2
            fun e he => hmem e (List.mem_cons_of_mem _ he)]
  · exact fun h => ⟨t, h, rfl⟩

end Bytes

/-! ## Decoding -/

namespace Percent

/-- A byte other than a percent mark stands for itself. -/
theorem decode_cons {b : UInt8} (h : b ≠ 37) (rest : Bytes) :
    decode (b :: rest) = b :: decode rest := by
  rw [decode]
  exact fun a c more hb _ => h hb

/-- Two bytes are the digits that stand for a byte. -/
def IsGroup (a b v : UInt8) : Prop :=
  ∃ x y, hexValue? a = some x ∧ hexValue? b = some y ∧ v = UInt8.ofNat (16 * x + y)

/-- A percent mark and two digits stand for one byte. -/
theorem decode_group {a b v : UInt8} (h : IsGroup a b v) (rest : Bytes) :
    decode (37 :: a :: b :: rest) = v :: decode rest := by
  obtain ⟨x, y, hx, hy, rfl⟩ := h
  simp only [decode, hx, hy]

/-- Bytes whose first two are no two digits. -/
def NoDigits (data : Bytes) : Prop :=
  ∀ a b rest, data = a :: b :: rest → hexValue? a = none ∨ hexValue? b = none

/-- Bytes that do not begin with a digit. -/
def NoDigit (data : Bytes) : Prop := ∀ b rest, data = b :: rest → hexValue? b = none

theorem NoDigit.noDigits {data : Bytes} (h : NoDigit data) : NoDigits data :=
  fun a b rest heq => Or.inl (h a (b :: rest) heq)

theorem NoDigit.behind {data : Bytes} (h : NoDigit data) (a : UInt8) : NoDigits (a :: data) := by
  intro a' b rest heq
  injection heq with _ htail
  exact Or.inr (h b rest htail)

theorem noDigit_cons {b : UInt8} (h : hexValue? b = none) (data : Bytes) :
    NoDigit (b :: data) := by
  intro b' rest heq
  injection heq with hb _
  exact hb ▸ h

/-- A percent mark stands for itself if no two digits follow. -/
theorem decode_percent {data : Bytes} (h : NoDigits data) :
    decode (37 :: data) = 37 :: decode data := by
  match data with
  | [] => rfl
  | [a] => rfl
  | a :: b :: rest =>
    rcases h a b rest rfl with hnone | hnone
    · simp only [decode, hnone]
    · cases ha : hexValue? a <;> simp only [decode, hnone, ha]

/-- Induction along a text that is decoded: over its groups, and over the bytes
that stand for themselves. -/
theorem decode_induction {P : Bytes → Prop} (nil : P [])
    (group : ∀ a b v rest, IsGroup a b v → P rest → P (37 :: a :: b :: rest))
    (percent : ∀ rest, NoDigits rest → P rest → P (37 :: rest))
    (byte : ∀ b rest, b ≠ 37 → P rest → P (b :: rest)) (data : Bytes) : P data := by
  fun_induction decode data with
  | case1 a b rest x y hy hx ih => exact group a b _ rest ⟨x, y, hx, hy, rfl⟩ ih
  | case2 a b rest hnone ih =>
    refine percent _ (fun a' b' rest' heq => ?_) ih
    injection heq with ha htail
    injection htail with hb
    subst ha hb
    cases hx : hexValue? a with
    | none => exact Or.inl rfl
    | some x =>
      cases hy : hexValue? b with
      | none => exact Or.inr rfl
      | some y => exact absurd hy (hnone x y hx)
  | case3 c rest hc ih =>
    by_cases h : c = 37
    · subst h
      exact percent rest (fun a b more heq => (hc a b more rfl heq).elim) ih
    · exact byte c rest h ih
  | case4 => exact nil

/-- Digits have the values 0 to 9, and letters of either case 10 to 15. -/
theorem hexValue?_eq_some {b : UInt8} {x : Nat} :
    hexValue? b = some x ↔ x < 10 ∧ b.toNat = 48 + x ∨
      10 ≤ x ∧ x < 16 ∧ (b.toNat = 55 + x ∨ b.toNat = 87 + x) := by
  simp only [hexValue?]
  grind

theorem hexValue?_lt {b : UInt8} {x : Nat} (h : hexValue? b = some x) : x < 16 := by
  rcases hexValue?_eq_some.mp h with h | h <;> omega

theorem hexValue?_percent : hexValue? 37 = none := by decide

theorem IsGroup.ne_percent {a b v : UInt8} (h : IsGroup a b v) : a ≠ 37 ∧ b ≠ 37 := by
  obtain ⟨x, y, hx, hy, -⟩ := h
  constructor <;> rintro rfl
  · rw [hexValue?_percent] at hx
    contradiction
  · rw [hexValue?_percent] at hy
    contradiction

/-- Two digits stand for one byte only. -/
theorem IsGroup.unique {a b v w : UInt8} (h : IsGroup a b v) (h' : IsGroup a b w) : v = w := by
  obtain ⟨x, y, hx, hy, rfl⟩ := h
  obtain ⟨x', y', hx', hy', rfl⟩ := h'
  rw [Option.some.inj (hx.symm.trans hx'), Option.some.inj (hy.symm.trans hy')]

/-- A group cannot begin at another byte than a percent mark. -/
theorem group_infix_cons {b : UInt8} (h : b ≠ 37) (a c : UInt8) (rest : Bytes) :
    [37, a, c] <:+: b :: rest ↔ [37, a, c] <:+: rest := by
  rw [List.infix_cons_iff, List.cons_prefix_cons]
  exact or_iff_right fun hfront => h hfront.1.symm

/-- The groups of a text are where they seem to be: what is decoded is there, or a
group stands for it. -/
theorem mem_decode {v : UInt8} (hv : hexValue? v = none) (hne : v ≠ 37) (data : Bytes) :
    v ∈ decode data ↔ v ∈ data ∨ ∃ a b, IsGroup a b v ∧ [37, a, b] <:+: data := by
  induction data using decode_induction with
  | nil => simp [decode]
  | group a b w rest hw ih =>
    obtain ⟨ha, hb⟩ := hw.ne_percent
    have hdigits : v ≠ a ∧ v ≠ b := by
      obtain ⟨x, y, hx, hy, -⟩ := hw
      constructor <;> rintro rfl <;> simp_all
    have hmem : v ∈ 37 :: a :: b :: rest ↔ v ∈ rest := by
      simp [hne, hdigits.1, hdigits.2]
    have hrun : ∀ c d, [37, c, d] <:+: 37 :: a :: b :: rest ↔
        c = a ∧ d = b ∨ [37, c, d] <:+: rest := fun c d => by
      rw [List.infix_cons_iff, group_infix_cons ha, group_infix_cons hb]
      simp [List.cons_prefix_cons]
    simp only [decode_group hw, List.mem_cons (b := w), ih, hmem, hrun]
    constructor
    · rintro (rfl | hrest | ⟨c, d, hgroup, hrest⟩)
      · exact Or.inr ⟨a, b, hw, Or.inl ⟨rfl, rfl⟩⟩
      · exact Or.inl hrest
      · exact Or.inr ⟨c, d, hgroup, Or.inr hrest⟩
    · rintro (hrest | ⟨c, d, hgroup, ⟨rfl, rfl⟩ | hrest⟩)
      · exact Or.inr (Or.inl hrest)
      · exact Or.inl (hgroup.unique hw)
      · exact Or.inr (Or.inr ⟨c, d, hgroup, hrest⟩)
  | percent rest hnone ih =>
    have hrun : ∀ c d, IsGroup c d v → ([37, c, d] <:+: 37 :: rest ↔ [37, c, d] <:+: rest) := by
      rintro c d ⟨x, y, hx, hy, -⟩
      rw [List.infix_cons_iff, List.cons_prefix_cons]
      refine or_iff_right fun hfront => ?_
      obtain ⟨more, hmore⟩ := hfront.2
      rcases hnone c d more hmore.symm with h | h <;> simp_all
    rw [decode_percent hnone, List.mem_cons, List.mem_cons, ih, or_iff_right hne,
      or_iff_right hne]
    exact or_congr_right (exists_congr fun c => exists_congr fun d =>
      and_congr_right fun hgroup => (hrun c d hgroup).symm)
  | byte b rest hb ih =>
    rw [decode_cons hb, List.mem_cons, List.mem_cons, ih, or_assoc]
    exact or_congr_right (or_congr_right (exists_congr fun c => exists_congr fun d =>
      and_congr_right fun _ => (group_infix_cons hb c d rest).symm))

/-- What holds no `%` stands for itself. -/
theorem decode_append {data : Bytes} (h : 37 ∉ data) (rest : Bytes) :
    decode (data ++ rest) = data ++ decode rest := by
  induction data with
  | nil => rfl
  | cons b data ih =>
    rw [List.mem_cons, not_or] at h
    rw [List.cons_append, decode_cons (Ne.symm h.1), ih h.2, List.cons_append]

theorem decode_eq_nil {data : Bytes} : decode data = [] ↔ data = [] := by
  induction data using decode_induction with
  | nil => simp [decode]
  | group a b v rest hv _ => simp [decode_group hv]
  | percent rest hnone _ => simp [decode_percent hnone]
  | byte b rest hb _ => simp [decode_cons hb]

/-! ## Encoding -/

theorem hexDigit_digit : ∀ n < 16, (hexDigit n).toNat < 128 ∧ isPlain (hexDigit n) = true ∧
    hexDigit n ≠ '/' ∧ hexValue? (Bytes.ofAscii (hexDigit n)) = some n := by
  decide

theorem lt_of_isPlain {c : Char} (h : isPlain c = true) : c.toNat < 128 := by
  simp only [isPlain, Bool.and_eq_true, decide_eq_true_eq] at h
  omega

/-- The form of a byte is a group that stands for it. -/
theorem ofChars_encodeByte (b : UInt8) :
    ∃ x y, Bytes.ofChars (encodeByte b) = [37, x, y] ∧ IsGroup x y b := by
  have hb := b.toNat_lt
  obtain ⟨hhigh, -, -, hhigh'⟩ := hexDigit_digit (b.toNat / 16) (by omega)
  obtain ⟨hlow, -, -, hlow'⟩ := hexDigit_digit (b.toNat % 16) (by omega)
  refine ⟨_, _, ?_, b.toNat / 16, b.toNat % 16, hhigh', hlow', ?_⟩
  · rw [Bytes.ofChars_ascii]
    · rfl
    · simp only [encodeByte, List.mem_cons, List.not_mem_nil, or_false]
      rintro c (rfl | rfl | rfl)
      · decide
      · exact hhigh
      · exact hlow
  · rw [Nat.div_add_mod, UInt8.ofNat_toNat]

/-- Bytes that were escaped one by one are decoded again. -/
theorem decode_encodeBytes (data rest : Bytes) :
    decode (Bytes.ofChars (data.flatMap encodeByte) ++ rest) = data ++ decode rest := by
  induction data with
  | nil => rfl
  | cons b data ih =>
    obtain ⟨x, y, hform, hgroup⟩ := ofChars_encodeByte b
    rw [List.flatMap_cons, Bytes.ofChars_append, hform, List.append_assoc]
    simp only [List.cons_append, List.nil_append, decode_group hgroup, ih]

/-- A character other than a percent mark is decoded again, escaped or not. -/
theorem decode_encodeChar {c : Char} (h : c ≠ '%') (rest : Bytes) :
    decode (Bytes.ofChars (encodeChar c) ++ rest) = String.utf8EncodeChar c ++ decode rest := by
  unfold encodeChar
  split
  · have hnone : 37 ∉ String.utf8EncodeChar c := fun hmem =>
      h ((Bytes.ofAscii_mem_utf8EncodeChar (by decide)).mp hmem).symm
    rw [Bytes.ofChars_cons, Bytes.ofChars_nil, List.append_nil, decode_append hnone]
  · exact decode_encodeBytes _ rest

/-- Hexadecimal digits are not escaped. -/
theorem isPlain_of_digit {c : Char} (hc : c.toNat < 128) {x : Nat}
    (hx : hexValue? (Bytes.ofAscii c) = some x) : isPlain c = true := by
  have hall : ∀ n < 128, (hexValue? (UInt8.ofNat n)).isSome → isPlain (Char.ofNat n) = true := by
    decide
  have hplain := hall c.toNat hc (by rw [← Bytes.ofAscii, hx]; rfl)
  rwa [Char.ofNat_toNat] at hplain

/-- A character is a digit in both forms, or begins with no digit in either. -/
theorem encodeChar_digit (c : Char) :
    (∃ b x, encodeChar c = [c] ∧ String.utf8EncodeChar c = [b] ∧ hexValue? b = some x) ∨
      ∀ rest, NoDigit (String.utf8EncodeChar c ++ rest) ∧
        NoDigit (Bytes.ofChars (encodeChar c) ++ rest) := by
  obtain ⟨b, data, hform⟩ := Bytes.utf8EncodeChar_eq_cons c
  cases hb : hexValue? b with
  | some x =>
    have hc : c.toNat < 128 := Nat.lt_of_not_le fun hlarge => by
      have hle : 128 ≤ b.toNat :=
        Bytes.le_of_mem_utf8EncodeChar hlarge (hform ▸ List.mem_cons_self)
      rcases hexValue?_eq_some.mp hb with h | h <;> omega
    rw [Bytes.utf8EncodeChar_ascii hc, List.cons.injEq] at hform
    obtain ⟨rfl, -⟩ := hform
    exact Or.inl ⟨_, x, by rw [encodeChar, if_pos (isPlain_of_digit hc hb)],
      Bytes.utf8EncodeChar_ascii hc, hb⟩
  | none =>
    refine Or.inr fun rest => ⟨hform ▸ noDigit_cons hb _, ?_⟩
    unfold encodeChar
    split
    · rw [Bytes.ofChars_cons, hform]
      exact noDigit_cons hb _
    · obtain ⟨x, y, hbyte, -⟩ := ofChars_encodeByte b
      rw [hform, List.flatMap_cons, Bytes.ofChars_append, hbyte]
      exact noDigit_cons hexValue?_percent _

@[simp] theorem encode_cons (c : Char) (s : List Char) :
    encode (c :: s) = encodeChar c ++ encode s := rfl

/-- A percent mark is not escaped. -/
theorem ofChars_encode_percent (s : List Char) :
    Bytes.ofChars (encode ('%' :: s)) = 37 :: Bytes.ofChars (encode s) ∧
      Bytes.ofChars ('%' :: s) = 37 :: Bytes.ofChars s :=
  ⟨rfl, rfl⟩

/-- Encoding what is reserved does not change the bytes that a text stands for. -/
theorem decode_encode (s : List Char) :
    decode (Bytes.ofChars (encode s)) = decode (Bytes.ofChars s) := by
  induction hlength : s.length using Nat.strongRecOn generalizing s with
  | ind length ih =>
    cases s with
    | nil => rfl
    | cons c s =>
      have hrest := ih s.length (by simp at hlength; omega) s rfl
      by_cases hc : c = '%'
      · subst hc
        rw [(ofChars_encode_percent s).1, (ofChars_encode_percent s).2]
        -- what follows the mark is decoded in one step with it only if it is two digits
        match s with
        | [] => rfl
        | d :: s =>
          simp only [encode_cons, Bytes.ofChars_append, Bytes.ofChars_cons] at hrest ⊢
          rcases encodeChar_digit d with ⟨a, x, hd, ha, hx⟩ | hnone
          · match s with
            | [] => simp [encode, hd, ha]
            | e :: s =>
              simp only [encode_cons, Bytes.ofChars_append, Bytes.ofChars_cons, hd, ha,
                Bytes.ofChars_nil, List.append_nil, List.cons_append, List.nil_append] at hrest ⊢
              rcases encodeChar_digit e with ⟨b, y, he, hb, hy⟩ | hnone
              · have hgroup : IsGroup a b (UInt8.ofNat (16 * x + y)) := ⟨x, y, hx, hy, rfl⟩
                simp only [he, hb, Bytes.ofChars_cons, Bytes.ofChars_nil, List.append_nil,
                  List.cons_append, List.nil_append, decode_group hgroup,
                  ih s.length (by simp at hlength; omega) s rfl]
              · rw [decode_percent ((hnone _).1.behind a), decode_percent ((hnone _).2.behind a),
                  hrest]
          · rw [decode_percent (hnone _).1.noDigits, decode_percent (hnone _).2.noDigits, hrest]
      · have hnone : 37 ∉ String.utf8EncodeChar c := fun hmem =>
          hc ((Bytes.ofAscii_mem_utf8EncodeChar (by decide)).mp hmem).symm
        rw [encode_cons, Bytes.ofChars_append, decode_encodeChar hc, hrest, Bytes.ofChars_cons,
          decode_append hnone]

/-! ## Groups of some bytes -/

/-- A group stands for the byte with these two digits. -/
theorem isGroup_iff {a b : UInt8} {x y : Nat} (hx : x < 16) (hy : y < 16) :
    IsGroup a b (UInt8.ofNat (16 * x + y)) ↔ hexValue? a = some x ∧ hexValue? b = some y := by
  constructor
  · rintro ⟨x', y', ha, hb, heq⟩
    have hx' := hexValue?_lt ha
    have hy' := hexValue?_lt hb
    have hnat := congrArg UInt8.toNat heq
    rw [UInt8.toNat_ofNat', UInt8.toNat_ofNat', Nat.mod_eq_of_lt (by omega),
      Nat.mod_eq_of_lt (by omega)] at hnat
    exact ⟨ha.trans (congrArg some (by omega)), hb.trans (congrArg some (by omega))⟩
  · exact fun h => ⟨x, y, h.1, h.2, rfl⟩

/-- Only two groups stand for a slash. -/
theorem isGroup_slash {a b : UInt8} : IsGroup a b 47 ↔ a = 50 ∧ (b = 70 ∨ b = 102) := by
  rw [show (47 : UInt8) = UInt8.ofNat (16 * 2 + 15) from rfl, isGroup_iff (by decide) (by decide),
    hexValue?_eq_some, hexValue?_eq_some]
  simp only [← UInt8.toNat_inj, UInt8.reduceToNat]
  omega

/-- Only one group stands for the byte 0. -/
theorem isGroup_nul {a b : UInt8} : IsGroup a b 0 ↔ a = 48 ∧ b = 48 := by
  rw [show (0 : UInt8) = UInt8.ofNat (16 * 0 + 0) from rfl, isGroup_iff (by decide) (by decide),
    hexValue?_eq_some, hexValue?_eq_some]
  simp only [← UInt8.toNat_inj, UInt8.reduceToNat]
  omega

/-- Only two groups stand for a point. -/
theorem isGroup_dot {a b : UInt8} : IsGroup a b 46 ↔ a = 50 ∧ (b = 69 ∨ b = 101) := by
  rw [show (46 : UInt8) = UInt8.ofNat (16 * 2 + 14) from rfl, isGroup_iff (by decide) (by decide),
    hexValue?_eq_some, hexValue?_eq_some]
  simp only [← UInt8.toNat_inj, UInt8.reduceToNat]
  omega

/-- A slash in the decoded text of a segment without slashes was written `%2F`. -/
theorem slash_mem_decode {s : List Char} (hascii : ∀ c ∈ s, c.toNat < 128) (hslash : '/' ∉ s) :
    47 ∈ decode (Bytes.ofChars s) ↔ ['%', '2', 'F'] <:+: s ∨ ['%', '2', 'f'] <:+: s := by
  have hnone : 47 ∉ Bytes.ofChars s := fun hmem =>
    hslash ((Bytes.ofAscii_mem_ofChars (c := '/') (by decide)).mp hmem)
  rw [mem_decode (by decide) (by decide), or_iff_right hnone,
    ← Bytes.map_ofAscii_infix_iff hascii (by simp),
    ← Bytes.map_ofAscii_infix_iff hascii (by simp)]
  simp only [isGroup_slash]
  constructor
  · rintro ⟨a, b, ⟨rfl, rfl | rfl⟩, h⟩
    · exact Or.inl h
    · exact Or.inr h
  · rintro (h | h)
    · exact ⟨50, 70, ⟨rfl, Or.inl rfl⟩, h⟩
    · exact ⟨50, 102, ⟨rfl, Or.inr rfl⟩, h⟩

/-- A NUL in the decoded text of a segment without one was written `%00`. -/
theorem nul_mem_decode {s : List Char} (hascii : ∀ c ∈ s, c.toNat < 128) (hnul : '\x00' ∉ s) :
    0 ∈ decode (Bytes.ofChars s) ↔ ['%', '0', '0'] <:+: s := by
  have hnone : 0 ∉ Bytes.ofChars s := fun hmem =>
    hnul ((Bytes.ofAscii_mem_ofChars (c := '\x00') (by decide)).mp hmem)
  rw [mem_decode (by decide) (by decide), or_iff_right hnone,
    ← Bytes.map_ofAscii_infix_iff hascii (by simp)]
  simp only [isGroup_nul]
  constructor
  · rintro ⟨a, b, ⟨rfl, rfl⟩, h⟩
    exact h
  · exact fun h => ⟨48, 48, ⟨rfl, rfl⟩, h⟩

/-! ## Dots -/

/-- Decoded bytes begin with a point that stands there, or with one that is encoded. -/
theorem decode_eq_dot_cons {data rest : Bytes} :
    decode data = 46 :: rest ↔ (∃ more, data = 46 :: more ∧ decode more = rest) ∨
      ∃ b more, (b = 69 ∨ b = 101) ∧ data = 37 :: 50 :: b :: more ∧ decode more = rest := by
  cases data using decode_induction with
  | nil => simp [decode]
  | group a b v more hv _ =>
    rw [decode_group hv, List.cons.injEq]
    constructor
    · rintro ⟨rfl, heq⟩
      obtain ⟨rfl, hb⟩ := isGroup_dot.mp hv
      exact Or.inr ⟨b, more, hb, rfl, heq⟩
    · rintro (⟨more', heq, _⟩ | ⟨b', more', hb, heq, hmore⟩)
      · simp at heq
      · simp only [List.cons.injEq, true_and] at heq
        obtain ⟨rfl, rfl, rfl⟩ := heq
        exact ⟨hv.unique (isGroup_dot.mpr ⟨rfl, hb⟩), hmore⟩
  | percent more hnone _ =>
    rw [decode_percent hnone]
    constructor
    · simp
    · rintro (⟨more', heq, _⟩ | ⟨b', more', hb, heq, hmore⟩)
      · simp at heq
      · obtain ⟨-, rfl⟩ := List.cons.inj heq
        rcases hnone _ _ _ rfl with h | h
        · exact absurd h (by decide)
        · rcases hb with rfl | rfl <;> exact absurd h (by decide)
  | byte b more hb _ =>
    rw [decode_cons hb]
    constructor
    · exact fun heq => Or.inl ⟨more, by rw [(List.cons.inj heq).1], (List.cons.inj heq).2⟩
    · rintro (⟨more', heq, hmore⟩ | ⟨b', more', _, heq, _⟩)
      · obtain ⟨rfl, rfl⟩ := List.cons.inj heq
        rw [hmore]
      · exact absurd (List.cons.inj heq).1 hb

end Percent

namespace UrlPath

/-- The same of characters. -/
theorem plainDots_eq_dot_cons {s rest : List Char} :
    plainDots s = '.' :: rest ↔ (∃ more, s = '.' :: more ∧ plainDots more = rest) ∨
      ∃ c more, (c = 'E' ∨ c = 'e') ∧ s = '%' :: '2' :: c :: more ∧ plainDots more = rest := by
  fun_cases plainDots s with
  | case1 more => simp
  | case2 more => simp
  | case3 c more hsmall hlarge =>
    rw [List.cons.injEq]
    constructor
    · rintro ⟨rfl, heq⟩
      exact Or.inl ⟨more, rfl, heq⟩
    · rintro (⟨more', heq, hmore⟩ | ⟨d, more', hd, heq, _⟩)
      · obtain ⟨rfl, rfl⟩ := List.cons.inj heq
        exact ⟨rfl, hmore⟩
      · obtain ⟨rfl, rfl⟩ := List.cons.inj heq
        rcases hd with rfl | rfl
        · exact (hlarge more' rfl rfl).elim
        · exact (hsmall more' rfl rfl).elim
  | case4 => simp

theorem plainDots_eq_nil {s : List Char} : plainDots s = [] ↔ s = [] := by
  fun_cases plainDots s <;> simp

@[simp] theorem plainDots_replicate (n : Nat) :
    plainDots (List.replicate n '.') = List.replicate n '.' := by
  induction n with
  | zero => rfl
  | succ n ih => rw [List.replicate_succ, plainDots_eq_dot_cons]; exact Or.inl ⟨_, rfl, ih⟩

/-- A path takes for dots what is decoded to dots. -/
theorem plainDots_eq_replicate (n : Nat) (s : List Char) :
    plainDots s = List.replicate n '.' ↔
      Percent.decode (Bytes.ofChars s) = List.replicate n 46 := by
  induction n generalizing s with
  | zero =>
    rw [List.replicate_zero, List.replicate_zero, plainDots_eq_nil, Percent.decode_eq_nil,
      Bytes.ofChars_eq_nil]
  | succ n ih =>
    rw [List.replicate_succ, List.replicate_succ, plainDots_eq_dot_cons,
      Percent.decode_eq_dot_cons]
    -- the characters of the two forms of a dot are found again in the bytes
    have hpoint : ∀ more, Bytes.ofChars s = 46 :: more ↔
        ∃ rest, s = '.' :: rest ∧ Bytes.ofChars rest = more := fun more =>
      Bytes.ofChars_eq_cons (c := '.') (by decide)
    have hgroup : ∀ (c : Char) more, c.toNat < 128 →
        (Bytes.ofChars s = 37 :: 50 :: Bytes.ofAscii c :: more ↔
          ∃ rest, s = '%' :: '2' :: c :: rest ∧ Bytes.ofChars rest = more) := by
      intro c more hc
      rw [show (37 : UInt8) = Bytes.ofAscii '%' from rfl,
        Bytes.ofChars_eq_cons (c := '%') (by decide),
        show (50 : UInt8) = Bytes.ofAscii '2' from rfl]
      simp only [Bytes.ofChars_eq_cons (c := '2') (by decide), Bytes.ofChars_eq_cons hc]
      grind
    constructor
    · rintro (⟨more, hs, hmore⟩ | ⟨c, more, hc, hs, hmore⟩)
      · exact Or.inl ⟨_, (hpoint _).mpr ⟨more, hs, rfl⟩, (ih more).mp hmore⟩
      · refine Or.inr ⟨Bytes.ofAscii c, _, ?_, (hgroup c _ ?_).mpr ⟨more, hs, rfl⟩,
          (ih more).mp hmore⟩
        · rcases hc with rfl | rfl
          · exact Or.inl rfl
          · exact Or.inr rfl
        · rcases hc with rfl | rfl <;> decide
    · rintro (⟨more, hs, hmore⟩ | ⟨b, more, rfl | rfl, hs, hmore⟩)
      · obtain ⟨rest, hrest, rfl⟩ := (hpoint more).mp hs
        exact Or.inl ⟨rest, hrest, (ih rest).mpr hmore⟩
      · obtain ⟨rest, hrest, rfl⟩ := (hgroup 'E' more (by decide)).mp hs
        exact Or.inr ⟨'E', rest, Or.inl rfl, hrest, (ih rest).mpr hmore⟩
      · obtain ⟨rest, hrest, rfl⟩ := (hgroup 'e' more (by decide)).mp hs
        exact Or.inr ⟨'e', rest, Or.inr rfl, hrest, (ih rest).mpr hmore⟩

/-- Encoding what is reserved makes no dots. -/
theorem plainDots_encode (n : Nat) (s : List Char) :
    plainDots (Percent.encode s) = List.replicate n '.' ↔ plainDots s = List.replicate n '.' := by
  rw [plainDots_eq_replicate, plainDots_eq_replicate, Percent.decode_encode]

end UrlPath

end SegmentedDownload
