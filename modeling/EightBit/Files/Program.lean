/-
Programs in files.
-/

import EightBit.Files.Store
import EightBit.Source
import EightBit.Text.Utf8

namespace EightBit.Files

/-- The program in a file that has, or has not, been read. -/
def programOf (path : String) : Except Error (List UInt8) → Except Fault (List UInt8)
  | .ok bytes => Source.parse (Text.Utf8.decode bytes)
  | .error cause => .error (.load (.unreadable path cause) none)

/-- The bytes of a file, for a way to encode pictures. -/
def Store.readBytes (store : Store) (encode : Image → List UInt8) (path : String) :
    Except Error (List UInt8) :=
  (store.read path).map (Content.toBytes encode)

/-- The program in a file of a store. A picture may be read as one. -/
def Store.program (store : Store) (encode : Image → List UInt8) (path : String) :
    Except Fault (List UInt8) :=
  programOf path (store.readBytes encode path)

end EightBit.Files
