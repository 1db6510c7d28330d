import SegmentedDownload.Config
import SegmentedDownload.FileSystem

/-!
# SegmentedDownload.Naming

The paths that a download writes to.

* The partial file of a download that can be resumed has a fixed name, made of
  the file name and the size, so that a later run finds it.
* Any other file gets the first name that is free: the plain one, or else with a
  number in parentheses. After ten thousand numbers the last one is taken, free
  or not.
-/

namespace SegmentedDownload.Naming

/-- A path in a directory. An absolute name stands for itself. -/
def join (directory name : String) : String :=
  if name.toList.head? = some '/' then name
  else if directory.toList.getLast?.all (· = '/') then directory ++ name
  else directory ++ "/" ++ name

/-- The `n`-th name of a file. -/
def candidate (base extension : String) (n : Nat) : String :=
  if n = 0 then base ++ extension else s!"{base}({n}){extension}"

/-- The number of the last name that is tried. -/
def lastNumber : Nat := 10000

/-- The first path from a number on that leads to nothing, or the one after
`tries` numbers. -/
def freeFrom (fs : FileSystem) (path : Nat → String) : (tries number : Nat) → String
  | 0, number => path number
  | tries + 1, number =>
    if fs.has (path number) then freeFrom fs path tries (number + 1) else path number

/-- The path of a file in a directory, with the first name that is free. -/
def firstFree (fs : FileSystem) (directory base extension : String) : String :=
  freeFrom fs (fun n => join directory (candidate base extension n)) lastNumber 0

/-- The name of a partial file without its extension. -/
def partialStem (c : Config) (size? : Option Int) : String :=
  s!"{c.fileName}.{size?.getD 0}"

def partialExtension : String := ".part"

def partialPath (fs : FileSystem) (c : Config) (size? : Option Int) (resume : Bool) : String :=
  if resume then join c.directory (candidate (partialStem c size?) partialExtension 0)
  else firstFree fs c.directory (partialStem c size?) partialExtension

def destination (fs : FileSystem) (c : Config) : String :=
  firstFree fs c.directory c.baseName c.extension

end SegmentedDownload.Naming
