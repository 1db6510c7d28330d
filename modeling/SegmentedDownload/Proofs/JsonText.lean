import Mathlib
import SegmentedDownload.Json.Read
import SegmentedDownload.Json.Write

/-!
# SegmentedDownload.Proofs.JsonText

What is written as JSON has the tokens of the value that was written.

* `Value.tokens` are the tokens of a value, in whatever layout it is written.
* `Spells s ts` says that the tokens `ts` are read off the text `s`.  A character in front of a
  text that is spelled adds one token, or none if it is a space (`Spells.cons`, `Spells.space`).
* Each kind of token has a lemma of its own: `unescape_flatMap` and `skipText_flatMap` for texts,
  `splitNumeral_append` and `token_toDigits` for integers.  An integer ends where something
  comes that does not continue a number (`Ends`).
* `Value.Fits.written` puts them together, by induction on the value, and `denotes_write` says
  so of a whole text.

Only integers that fit in a word are read as integers, so this is asked of those in the value
(`Value.Fits`).
-/

namespace SegmentedDownload.Json

/-! ## The tokens of a value -/

mutual

def Value.tokens : Value → List Token
  | .null => [.null]
  | .boolean b => [.boolean b]
  | .integer n => [.number (.ok (.integer n)) none]
  | .text s => [.text (.ok s) none]
  | .object [] => [.openObject, .closeObject]
  | .object (member :: members) =>
    .openObject :: memberTokens member ++ laterTokens members ++ [.closeObject]

def memberTokens : String × Value → List Token
  | (key, value) => .text (.ok key) none :: .colon :: value.tokens

/-- The tokens of the other members of an object. -/
def laterTokens : List (String × Value) → List Token
  | [] => []
  | member :: members => .comma :: memberTokens member ++ laterTokens members

end

/-- Every integer in a value fits in a word of its sign. -/
inductive Value.Fits : Value → Prop
  | null : Fits .null
  | boolean (b : Bool) : Fits (.boolean b)
  | integer (n : Int) (hlo : -9223372036854775808 ≤ n) (hhi : n ≤ 18446744073709551615) :
    Fits (.integer n)
  | text (s : String) : Fits (.text s)
  | object (members : List (String × Value)) (h : ∀ member ∈ members, Fits member.2) :
    Fits (.object members)

/-! ## Spelling -/

/-- The tokens are read off a text, whatever else bounds their number. -/
def Spells (s : List Char) (ts : List Token) : Prop :=
  ∀ fuel, s.length ≤ fuel → tokensWithin fuel s = ts

namespace Spells

variable {s rest : List Char} {c : Char} {t : Token} {ts : List Token}

/-- A text that spells some tokens is read as these. -/
theorem tokens_eq (h : Spells s ts) : tokens (String.ofList s) = ts := by
  rw [tokens, String.toList_ofList]
  exact h _ (by rw [String.length_ofList])

theorem nil : Spells [] [] := by
  intro fuel _
  cases fuel <;> rfl

/-- White space in front spells nothing. -/
theorem space (h : Spells s ts) (hc : isSpace c = true) : Spells (c :: s) ts := by
  intro fuel hfuel
  cases fuel with
  | zero => contradiction
  | succ fuel =>
    rw [tokensWithin, if_pos hc]
    exact h fuel (Nat.le_of_succ_le_succ hfuel)

theorem spaces {l : List Char} (h : Spells s ts) (hl : ∀ c ∈ l, isSpace c = true) :
    Spells (l ++ s) ts := by
  induction l with
  | nil => exact h
  | cons c l ih =>
    obtain ⟨hc, hl⟩ := List.forall_mem_cons.mp hl
    exact (ih hl).space hc

/-- A token and what is spelled behind it. -/
theorem cons (h : Spells rest ts) (htoken : tokenAt c s = (t, rest)) (hc : isSpace c = false)
    (hlast : t.isLast = false) (hle : rest.length ≤ s.length) : Spells (c :: s) (t :: ts) := by
  intro fuel hfuel
  cases fuel with
  | zero => contradiction
  | succ fuel =>
    rw [tokensWithin, hc, if_neg Bool.false_ne_true, htoken]
    dsimp only
    rw [hlast, if_neg Bool.false_ne_true, h fuel (hle.trans (Nat.le_of_succ_le_succ hfuel))]

/-- A character that is a token by itself. -/
theorem sign (h : Spells s ts) (htoken : tokenAt c s = (t, s)) (hc : isSpace c = false)
    (hlast : t.isLast = false) : Spells (c :: s) (t :: ts) :=
  h.cons htoken hc hlast le_rfl

end Spells

/-! ## Texts -/

section Text

variable {c : Char} {s rest : List Char}

theorem hexValue?_hexDigit : ∀ n < 16, hexValue? (hexDigit n) = some n := by decide

/-- A control character by its code. -/
theorem hex4?_control (hc : c.toNat < 0x20) :
    hex4? '0' '0' (hexDigit (c.toNat / 16)) (hexDigit (c.toNat % 16)) = some c.toNat := by
  have hzero : hexValue? '0' = some 0 := by decide
  have hhigh := hexValue?_hexDigit (c.toNat / 16) (by omega)
  have hlow := hexValue?_hexDigit (c.toNat % 16) (by omega)
  simp only [hex4?, hzero, hhigh, hlow, Option.bind_eq_bind, Option.bind_some, Option.pure_def,
    Option.some.injEq]
  omega

/-- A character that needs no escape stands for itself. -/
theorem unescape_plain (hquote : c ≠ '"') (hbackslash : c ≠ '\\') (hc : ¬ c.toNat < 0x20)
    (s : List Char) : unescape none (c :: s) = (unescape none s).map (c :: ·) := by
  rw [unescape.eq_def]
  split <;> simp_all

/-- A character that needs no escape is passed over. -/
theorem skipText_plain (hquote : c ≠ '"') (hbackslash : c ≠ '\\') (hc : ¬ c.toNat < 0x20)
    (s : List Char) : skipText (c :: s) = skipText s := by
  rw [skipText.eq_def]
  split <;> simp_all

/-- A character is read as it was before it was written. -/
theorem unescape_escapeChar (c : Char) (s : List Char) :
    unescape none (escapeChar c ++ s) = (unescape none s).map (c :: ·) := by
  unfold escapeChar
  split
  -- seven characters are escaped by a letter
  iterate 7
    · simp [unescape, escape?]
  next hquote hbackslash _ _ _ _ _ =>
    split
    · next hcontrol =>
      have htrailing : isTrailing c.toNat = false := decide_eq_false (by omega)
      have hleading : isLeading c.toNat = false := decide_eq_false (by omega)
      simp [unescape, hex4?_control hcontrol, htrailing, hleading]
    · next hplain => exact unescape_plain hquote hbackslash hplain s

theorem skipText_escapeChar (c : Char) (s : List Char) :
    skipText (escapeChar c ++ s) = skipText s := by
  unfold escapeChar
  split
  iterate 7
    · simp [skipText, escape?]
  next hquote hbackslash _ _ _ _ _ =>
    split
    · next hcontrol => simp [skipText, hex4?_control hcontrol]
    · next hplain => exact skipText_plain hquote hbackslash hplain s

/-- A text that was written is read as it was. -/
theorem unescape_flatMap (l rest : List Char) :
    unescape none (l.flatMap escapeChar ++ '"' :: rest) = .ok l := by
  induction l with
  | nil => simp [unescape]
  | cons c l ih =>
    rw [List.flatMap_cons, List.append_assoc, unescape_escapeChar, ih]
    rfl

/-- A text is passed over up to its closing quote. -/
theorem skipText_flatMap (l rest : List Char) :
    skipText (l.flatMap escapeChar ++ '"' :: rest) = .ok rest := by
  induction l with
  | nil => simp [skipText]
  | cons c l ih => rw [List.flatMap_cons, List.append_assoc, skipText_escapeChar, ih]

/-- A text is read back, whatever its characters are. -/
theorem Spells.text {ts : List Token} (h : Spells rest ts) (text : String) :
    Spells (writeText text ++ rest) (.text (.ok text) none :: ts) := by
  have hwritten : writeText text ++ rest =
      '"' :: (text.toList.flatMap escapeChar ++ '"' :: rest) := by
    simp [writeText]
  have htoken : textToken (text.toList.flatMap escapeChar ++ '"' :: rest) =
      (.text (.ok text) none, rest) := by
    simp only [textToken, unescape_flatMap, skipText_flatMap, Except.map, String.ofList_toList]
  rw [hwritten]
  exact h.cons htoken rfl rfl (by simp; omega)

end Text

/-! ## Integers -/

section Integer

variable {n : Nat} {l rest : List Char} {s : Significand}

/-- More digits make a number no smaller. -/
theorem le_ofDigitChars (n : Nat) (l : List Char) : n ≤ Nat.ofDigitChars 10 l n := by
  induction l generalizing n with
  | nil => exact le_rfl
  | cons c l ih =>
    rw [Nat.ofDigitChars_cons]
    exact le_trans (by omega) (ih _)

/-- A significand takes all digits of a number that fits in a word. -/
theorem foldl_push (hfull : s.full = false)
    (hmax : Nat.ofDigitChars 10 l s.value ≤ maxUnsigned) :
    (l.foldl Significand.push s).full = false ∧
      (l.foldl Significand.push s).value = Nat.ofDigitChars 10 l s.value := by
  induction l generalizing s with
  | nil => exact ⟨hfull, rfl⟩
  | cons c l ih =>
    have hvalue : s.value * 10 + digitValue c = 10 * s.value + (c.toNat - '0'.toNat) := by
      rw [Nat.mul_comm]
      rfl
    rw [Nat.ofDigitChars_cons, ← hvalue] at hmax ⊢
    have hnext : s.value * 10 + digitValue c ≤ maxUnsigned := (le_ofDigitChars _ l).trans hmax
    have hpush : s.push c =
        { s with value := s.value * 10 + digitValue c, taken := s.taken + 1 } := by
      unfold Significand.push
      exact if_neg (by simp [hfull, hnext])
    rw [List.foldl_cons, hpush]
    exact ih hfull hmax

theorem isDigit_toDigits : ∀ c ∈ Nat.toDigits 10 n, c.isDigit = true := fun _ hc =>
  Nat.isDigit_of_mem_toDigits (by decide) (by decide) hc

/-- A number has no digit zero in front, unless it is zero. -/
theorem head?_toDigits (hn : 0 < n) : (Nat.toDigits 10 n).head? ≠ some '0' := by
  induction n using Nat.strong_induction_on with
  | _ n ih =>
    by_cases hlt : n < 10
    · rw [Nat.toDigits_of_lt_base hlt]
      interval_cases n <;> decide
    · rw [Nat.toDigits_of_base_le (by decide) (by omega),
        List.head?_append_of_ne_nil _ Nat.toDigits_ne_nil]
      exact ih (n / 10) (by omega) (by omega)

/-- Nothing that continues a number comes first. -/
def Ends (rest : List Char) : Prop :=
  ∀ c ∈ rest.head?, c.isDigit = false ∧ c ≠ '.' ∧ c ≠ 'e' ∧ c ≠ 'E'

/-- A number without point and exponent. -/
def plain (negative : Bool) (whole rest : List Char) : Numeral :=
  { negative, whole, fraction? := none, exponent? := none, rest }

/-- A number without point and exponent is split where its digits end. -/
theorem splitNumeral_append (negative : Bool) (hdigits : ∀ c ∈ l, c.isDigit = true)
    (hrest : Ends rest) : splitNumeral negative (l ++ rest) = plain negative l rest := by
  have hwhole : (l ++ rest).takeWhile Char.isDigit = l ∧
      (l ++ rest).dropWhile Char.isDigit = rest := by
    rw [List.takeWhile_append_of_pos hdigits, List.dropWhile_append_of_pos hdigits]
    cases rest with
    | nil => simp
    | cons c rest =>
      obtain ⟨hdigit, -⟩ := hrest c rfl
      simp [hdigit]
  obtain ⟨htake, hdrop⟩ := hwhole
  unfold splitNumeral
  rw [htake, hdrop]
  cases rest with
  | nil => simp [plain]
  | cons c rest =>
    obtain ⟨-, hpoint, he, hE⟩ := hrest c rfl
    simp [plain, hpoint, he, hE]

/-- A number is written as numbers have to be. -/
theorem wellFormed_toDigits (negative : Bool) (n : Nat) (rest : List Char) :
    (plain negative (Nat.toDigits 10 n) rest).wellFormed = true := by
  have hzero : (Nat.toDigits 10 n).head? ≠ some '0' ∨ (Nat.toDigits 10 n).length = 1 := by
    rcases Nat.eq_zero_or_pos n with rfl | hpos
    · exact Or.inr rfl
    · exact Or.inl (head?_toDigits hpos)
  simp only [Numeral.wellFormed, plain, Nat.toDigits_ne_nil, ne_eq, not_false_eq_true,
    decide_true, Bool.true_and, Bool.and_eq_true, Bool.or_eq_true, beq_iff_eq, reduceCtorEq,
    Option.map_none, and_true]
  exact hzero.imp_left fun h => decide_eq_true h

/-- The digits of a number are collected without overflow. -/
theorem foldl_toDigits (hmax : n ≤ maxUnsigned) :
    ((Nat.toDigits 10 n).foldl Significand.push {}).full = false ∧
      ((Nat.toDigits 10 n).foldl Significand.push {}).value = n := by
  have hdigits : Nat.ofDigitChars 10 (Nat.toDigits 10 n) 0 = n := Nat.ofDigitChars_ten_toDigits
  obtain ⟨hfull, hvalue⟩ := @foldl_push (Nat.toDigits 10 n) {} rfl (hdigits.symm ▸ hmax)
  exact ⟨hfull, hvalue.trans hdigits⟩

/-- A number is read back. -/
theorem token_toDigits (hmax : n ≤ maxUnsigned) :
    (plain false (Nat.toDigits 10 n) rest).token = .number (.ok (.integer n)) none := by
  obtain ⟨hfull, hvalue⟩ := foldl_toDigits hmax
  rw [Numeral.token, wellFormed_toDigits, if_pos rfl]
  simp [Numeral.value, plain, hfull, hvalue]

theorem token_toDigits_negative (hpos : 0 < n) (hmax : n ≤ 9223372036854775808) :
    (plain true (Nat.toDigits 10 n) rest).token = .number (.ok (.integer (-n))) none := by
  obtain ⟨hfull, hvalue⟩ := foldl_toDigits (hmax.trans (by decide) : n ≤ maxUnsigned)
  have hinteger : ¬ (n = 0 ∨ 9223372036854775808 < n) := by omega
  rw [Numeral.token, wellFormed_toDigits, if_pos rfl]
  simp [Numeral.value, plain, hfull, hvalue, hinteger]

/-- A digit begins a number. -/
theorem tokenAt_digit {c : Char} (hc : c.isDigit = true) (s : List Char) :
    tokenAt c s = ((splitNumeral false (c :: s)).token, (splitNumeral false (c :: s)).rest) := by
  unfold tokenAt
  split
  all_goals first | contradiction | skip
  rw [if_pos hc]

theorem isSpace_digit {c : Char} (hc : c.isDigit = true) : isSpace c = false := by
  unfold isSpace
  by_contra h
  simp only [Bool.not_eq_false, Bool.or_eq_true, beq_iff_eq] at h
  rcases h with ((rfl | rfl) | rfl) | rfl <;> contradiction

variable {ts : List Token}

/-- A number is read back if something ends it. -/
theorem Spells.natural (h : Spells rest ts) (hrest : Ends rest) (hmax : n ≤ maxUnsigned) :
    Spells (Nat.toDigits 10 n ++ rest) (.number (.ok (.integer n)) none :: ts) := by
  have hdigits := @isDigit_toDigits n
  have hsplit := splitNumeral_append false hdigits hrest
  have htoken := @token_toDigits n rest hmax
  obtain ⟨c, l, hcons⟩ := List.exists_cons_of_ne_nil (@Nat.toDigits_ne_nil n 10)
  rw [hcons] at hdigits hsplit htoken ⊢
  have hc := hdigits c List.mem_cons_self
  rw [List.cons_append] at hsplit ⊢
  refine h.cons ?_ (isSpace_digit hc) rfl (by simp)
  rw [tokenAt_digit hc, hsplit, ← htoken]
  rfl

theorem Spells.negative (h : Spells rest ts) (hrest : Ends rest) (hpos : 0 < n)
    (hmax : n ≤ 9223372036854775808) :
    Spells ('-' :: (Nat.toDigits 10 n ++ rest)) (.number (.ok (.integer (-n))) none :: ts) := by
  have hsplit := splitNumeral_append true (@isDigit_toDigits n) hrest
  refine h.cons ?_ rfl rfl (by simp)
  change ((splitNumeral true _).token, (splitNumeral true _).rest) = _
  rw [hsplit, ← @token_toDigits_negative n rest hpos hmax]
  rfl

/-- An integer is read as itself if it fits in a word. -/
theorem Spells.integer (h : Spells rest ts) (hrest : Ends rest) {n : Int}
    (hlo : -9223372036854775808 ≤ n) (hhi : n ≤ 18446744073709551615) :
    Spells ((toString n).toList ++ rest) (.number (.ok (.integer n)) none :: ts) := by
  rw [Int.toString_eq_repr, Int.repr_eq_if]
  split
  · next hsign =>
    rw [Nat.toList_repr]
    have hspelled := @Spells.natural n.toNat rest ts h hrest (by unfold maxUnsigned; omega)
    rwa [Int.toNat_of_nonneg hsign] at hspelled
  · next hsign =>
    rw [String.toList_append, Nat.toList_repr]
    have hspelled := @Spells.negative (-n).toNat rest ts h hrest (by omega) (by omega)
    rwa [Int.toNat_of_nonneg (by omega), neg_neg] at hspelled

end Integer

/-! ## Values -/

section Value

variable {rest : List Char} {ts : List Token}

theorem Spells.lineBreak (h : Spells rest ts) (layout : Layout) :
    Spells (layout.lineBreak ++ rest) ts := by
  refine h.spaces fun c hc => ?_
  cases layout with
  | compact => contradiction
  | spread level =>
    rcases List.mem_cons.mp hc with rfl | hc
    · rfl
    · rw [List.eq_of_mem_replicate hc]
      rfl

theorem Spells.afterKey (h : Spells rest ts) (layout : Layout) :
    Spells (layout.afterKey ++ rest) (.colon :: ts) := by
  cases layout with
  | compact => exact h.sign rfl rfl rfl
  | spread => exact (h.space rfl).sign rfl rfl rfl

theorem ends_cons {c : Char} (h : c.isDigit = false ∧ c ≠ '.' ∧ c ≠ 'e' ∧ c ≠ 'E') :
    Ends (c :: rest) := by
  intro d hd
  obtain rfl := Option.some.inj hd
  exact h

theorem ends_nil : Ends [] := nofun

/-- What stands in front of a closing brace ends a number. -/
theorem ends_lineBreak (layout : Layout) (rest : List Char) :
    Ends (layout.lineBreak ++ '}' :: rest) := by
  cases layout with
  | compact => exact ends_cons (by decide)
  | spread => exact ends_cons (by decide)

/-- Further members end a number, as they begin with a comma or are none. -/
theorem ends_writeMembers (h : Ends rest) (layout : Layout) (members : List (String × Value)) :
    Ends (writeMembers layout members ++ rest) := by
  cases members with
  | nil => exact h
  | cons member members =>
    rw [writeMembers, List.cons_append, List.cons_append]
    exact ends_cons (by decide)

/-- A value has its tokens wherever it is written. -/
def Value.Written (v : Value) : Prop :=
  ∀ {layout : Layout} {rest : List Char} {ts : List Token}, Ends rest → Spells rest ts →
    Spells (write layout v ++ rest) (v.tokens ++ ts)

variable {layout : Layout}

/-- A member spells its key, a colon and its value. -/
theorem Value.Written.member {key : String} {v : Value} (hv : v.Written) (hrest : Ends rest)
    (h : Spells rest ts) :
    Spells (writeMember layout (key, v) ++ rest) (memberTokens (key, v) ++ ts) := by
  have hvalue : Spells (write layout v ++ rest) (v.tokens ++ ts) := hv hrest h
  simp only [writeMember, memberTokens, List.append_assoc, List.cons_append]
  exact ((hvalue.afterKey layout).text key).lineBreak layout

/-- Further members spell their tokens, one after the other. -/
theorem Spells.members {members : List (String × Value)} (h : Spells rest ts)
    (hmembers : ∀ member ∈ members, member.2.Written) (hrest : Ends rest) :
    Spells (writeMembers layout members ++ rest) (laterTokens members ++ ts) := by
  induction members with
  | nil => simpa [writeMembers, laterTokens] using h
  | cons member members ih =>
    obtain ⟨hmember, hmembers⟩ := List.forall_mem_cons.mp hmembers
    simp only [writeMembers, laterTokens, List.append_assoc, List.cons_append]
    exact (hmember.member (ends_writeMembers hrest layout members) (ih hmembers)).sign rfl rfl rfl

/-- What is written has the tokens of the value, in every layout. -/
theorem Value.Fits.written {v : Value} (h : v.Fits) : v.Written := by
  induction h with
  | null =>
    intro layout rest ts _ h
    exact h.cons rfl rfl rfl (Nat.le_add_right _ 3)
  | boolean b =>
    intro layout rest ts _ h
    cases b with
    | true => exact h.cons rfl rfl rfl (Nat.le_add_right _ 3)
    | false => exact h.cons rfl rfl rfl (Nat.le_add_right _ 4)
  | integer n hlo hhi =>
    intro layout rest ts hrest h
    exact h.integer hrest hlo hhi
  | text s =>
    intro layout rest ts _ h
    exact h.text s
  | object members _ ih =>
    intro layout rest ts _ h
    cases members with
    | nil => exact (h.sign rfl rfl rfl).sign rfl rfl rfl
    | cons member members =>
      obtain ⟨hmember, hmembers⟩ := List.forall_mem_cons.mp ih
      have hclose : Spells (layout.lineBreak ++ '}' :: rest) (.closeObject :: ts) :=
        (h.sign rfl rfl rfl).lineBreak layout
      have hends := ends_lineBreak layout rest
      simp only [write, Value.tokens, List.append_assoc, List.cons_append, List.nil_append]
      exact (hmember.member (ends_writeMembers hends _ _)
        (hclose.members hmembers hends)).sign rfl rfl rfl

/-- A text denotes a value if it has its tokens. Spaces between them do not matter, and neither
does how a character is escaped. -/
def Denotes (text : String) (v : Value) : Prop := tokens text = v.tokens

/-- **What is written is read back**, token for token, in every layout. -/
theorem denotes_write {v : Value} (h : v.Fits) (layout : Layout) :
    Denotes (String.ofList (write layout v)) v := by
  have hspelled : Spells (write layout v ++ []) (v.tokens ++ []) := h.written ends_nil Spells.nil
  rw [List.append_nil, List.append_nil] at hspelled
  exact hspelled.tokens_eq

end Value

end SegmentedDownload.Json
