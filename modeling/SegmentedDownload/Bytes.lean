/-!
# SegmentedDownload.Bytes

Byte lists as the contents of files and message bodies.

* `Bytes.resize` cuts or zero-fills contents to a length;
* `Bytes.splice` writes a run of bytes over contents at a position, filling the
  gap with zeros when the position lies past the old end;
* `Bytes.slice` reads a run back;
* `Bytes.ofText` and `Bytes.toText?` are the UTF-8 form of texts;
* `Bytes.hex` prints two lowercase hexadecimal digits per byte.

Statements about files are made about these lists, so every operation of the
library that touches a file goes through `splice` and `resize`.
-/

namespace SegmentedDownload

/-- A run of bytes. -/
abbrev Bytes := List UInt8

namespace Bytes

/-- The contents cut to `n` bytes, or filled with zeros up to `n`. -/
def resize (contents : Bytes) (n : Nat) : Bytes :=
  contents.take n ++ List.replicate (n - contents.length) 0

/-- The contents after `data` was written at `pos`. -/
def splice (contents : Bytes) (pos : Nat) (data : Bytes) : Bytes :=
  resize contents pos ++ data ++ contents.drop (pos + data.length)

/-- The `len` bytes found at `pos`, fewer when the contents end before. -/
def slice (contents : Bytes) (pos len : Nat) : Bytes :=
  (contents.drop pos).take len

/-! ## Lengths -/

@[simp] theorem length_resize (contents : Bytes) (n : Nat) :
    (resize contents n).length = n := by
  simp [resize]; omega

/-- Writing never shortens contents, and extends them only up to the end of the data. -/
@[simp] theorem length_splice (contents : Bytes) (pos : Nat) (data : Bytes) :
    (splice contents pos data).length = max contents.length (pos + data.length) := by
  simp [splice]; omega

theorem length_slice (contents : Bytes) (pos len : Nat) :
    (slice contents pos len).length = min len (contents.length - pos) := by
  simp [slice]

/-! ## Reading back -/

/-- What was written at a position is read back there. -/
theorem slice_splice (contents : Bytes) (pos : Nat) (data : Bytes) :
    slice (splice contents pos data) pos data.length = data := by
  simp [slice, splice, List.append_assoc]

/-! ## Text -/

/-- The UTF-8 form of a text. -/
def ofText (s : String) : Bytes := s.toUTF8.data.toList

/-- The text with a given UTF-8 form. -/
def toText? (data : Bytes) : Option String := String.fromUTF8? ⟨data.toArray⟩

/-- A text is read back from its bytes. -/
theorem toText?_ofText (s : String) : toText? (ofText s) = some s := by
  simp only [toText?, ofText, Array.toArray_toList]
  unfold String.fromUTF8?
  rw [String.toUTF8_eq_toByteArray, dif_pos s.isValidUTF8]
  rfl

/-! ## Hexadecimal text -/

/-- The lowercase hexadecimal digit of a number below sixteen. -/
def hexDigit (n : Nat) : Char :=
  if n < 10 then Char.ofNat (48 + n) else Char.ofNat (87 + n)

/-- Two lowercase hexadecimal digits per byte. -/
def hex (data : Bytes) : String :=
  String.ofList (data.flatMap fun b => [hexDigit (b.toNat / 16), hexDigit (b.toNat % 16)])

end Bytes

end SegmentedDownload
