import Marginalia.Disk

/-!
# Documents

A document is a file that holds text: its bytes are UTF-8 and none of its characters is the null
character.  Reading one turns every line end that is written with a carriage return into a line
feed.

A document that cannot be read is a fault of the file, and those who read many documents go on
without it; only a path that is malformed stops them (`Document.Fault.isRaised`).
-/

namespace Marginalia.Document

/-- Why a document cannot be read. -/
inductive Fault where
  /-- There is no file to be read. -/
  | disk (fault : Disk.Fault)
  /-- The file does not hold text. -/
  | notText
  /-- The text holds a null character. -/
  | binary
deriving DecidableEq

/-- What is said about a file that was found but not read. -/
def Fault.message? (path : Text) : Fault → Option Text
  | disk _ => none
  | notText => some (("Not a UTF-8 text file: " : Text) ++ path)
  | binary => some (("Binary content in file: " : Text) ++ path)

/-- Whether a fault stops those who read many documents. -/
def Fault.isRaised : Fault → Bool
  | disk fault => fault.isMalformedPath
  | _ => false

/-- The text that bytes stand for, with plain line ends. -/
def ofBytes (bytes : List UInt8) : Except Fault Text :=
  match Utf8.decode bytes with
  | none => .error .notText
  | some text =>
    if text.contains (.char '\x00') then .error .binary else .ok text.normalizeNewlines

/-- Reads the document at a path. -/
def read (disk : Disk) (path : Path) : Except Fault Text :=
  match disk.read path with
  | .ok bytes => ofBytes bytes
  | .error fault => .error (.disk fault)

end Marginalia.Document
