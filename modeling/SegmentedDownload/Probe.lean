import SegmentedDownload.Error
import SegmentedDownload.Word

/-!
# SegmentedDownload.Probe

Asking a server for the size of a file. The reply has to be a plain success with
a length that is a signed word. A download asks twice before it goes on without
knowing the size, and takes a size that is not positive as unknown.
-/

namespace SegmentedDownload

/-- What came back for a size query. -/
inductive SizeReply
  /-- The connection failed. -/
  | lost
  | answered (status : Nat) (length? : Option String)
deriving Repr, DecidableEq

namespace Probe

/-- The number of some decimal digits. -/
def digits? (s : List Char) : Option Nat :=
  if !s.isEmpty && s.all Char.isDigit then
    some (s.foldl (fun n c => 10 * n + (c.toNat - 48)) 0)
  else none

/-- The signed word that a text stands for. -/
def word? (text : String) : Option Int :=
  let value? : Option Int := match text.toList with
    | '-' :: rest => (digits? rest).map fun n => -(n : Int)
    | '+' :: rest => (digits? rest).map Int.ofNat
    | s => (digits? s).map Int.ofNat
  value?.filter fun n => decide (Word.minInt ≤ n ∧ n ≤ Word.maxInt)

def size : SizeReply → Except DownloadError Int
  | .lost => .error .transport
  | .answered status length? =>
    if status = 200 then
      match length? >>= word? with
      | some size => .ok size
      | none => .error (.sizeQuery .noLength)
    else .error (.sizeQuery (.status status))

/-- How often the size is asked for. -/
def attempts : Nat := 2

/-- The size as far as it is known, with so many attempts left. -/
def settle : Nat → List SizeReply → Option Int
  | 0, _ => none
  | tries + 1, replies =>
    match size (replies.headD .lost) with
    | .ok size => if 0 < size then some size else none
    | .error _ => settle tries replies.tail

/-- The size as far as it is known, given the replies in their order. -/
def settled (replies : List SizeReply) : Option Int := settle attempts replies

end Probe

end SegmentedDownload
