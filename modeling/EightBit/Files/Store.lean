/-
Files as a value: a tree of directories around the working directory. Paths are followed one part at
a time, so every part but the last must be a directory that exists, also before a pair of dots. The
directories above the working directory exist, and nothing is known to be in them.
-/

import EightBit.Files.Error
import EightBit.Files.Path
import EightBit.Image

namespace EightBit.Files

/-- What a file holds: bytes, or a picture that was written to it. -/
inductive Content where
  | bytes (bytes : List UInt8)
  | picture (image : Image)
  deriving DecidableEq, Repr

/-- The bytes of a file, for a way to encode pictures. -/
def Content.toBytes (encode : Image → List UInt8) : Content → List UInt8
  | .bytes held => held
  | .picture image => encode image

inductive Entry where
  | file (content : Content)
  | directory
  deriving DecidableEq, Repr

/-- The entries that are known, each under the text of its place. -/
structure Store where
  entries : List (String × Entry)
  deriving DecidableEq, Repr

namespace Store

def empty : Store :=
  ⟨[]⟩

/-! ### Places -/

/-- The entry at a place. -/
def find? (store : Store) (place : List String) : Option Entry :=
  if Path.isAbove place then some .directory else store.entries.lookup (Path.join place)

def isDirectory (store : Store) (place : List String) : Bool :=
  store.find? place = some .directory

/-- Sets the entry at a place. A new entry comes last. -/
def set (store : Store) (place : List String) (entry : Entry) : Store :=
  let key := Path.join place
  if (store.entries.lookup key).isSome then
    ⟨store.entries.map fun (other, old) => (other, if other = key then entry else old)⟩
  else ⟨store.entries ++ [(key, entry)]⟩

/-! ### Following a path -/

/-- The place a part names in a directory, whether there is something or not. -/
def enter (store : Store) (place : List String) (part : String) : Except Cause (List String) :=
  if !store.isDirectory place then .error .notDirectory
  else if part = "." then .ok place
  else if part = ".." then .ok (Path.up place)
  else if Path.longestName < part.utf8ByteSize then .error .nameTooLong
  else .ok (place ++ [part])

/-- Follows parts from a place, all of which must exist. -/
def follow (store : Store) (place : List String) : List String → Except Cause (List String)
  | [] => .ok place
  | part :: rest =>
    match store.enter place part with
    | .error cause => .error cause
    | .ok next =>
      if (store.find? next).isSome then store.follow next rest else .error .missing

/-- The parts of a path that can be followed at all. -/
def followable (path : String) : Except Cause (List String) :=
  if path.isEmpty then .error .missing
  else if Path.longestPath < path.utf8ByteSize then .error .nameTooLong
  else .ok (Path.parts path)

/-- The place an existing path leads to. A slash at the end asks for a directory. -/
def locate (store : Store) (path : String) : Except Cause (List String) :=
  match followable path with
  | .error cause => .error cause
  | .ok parts =>
    store.follow (Path.start path) (parts ++ if Path.endsInSlash path then ["."] else [])

def pathExists (store : Store) (path : String) : Bool :=
  match store.locate path with
  | .ok _ => true
  | .error _ => false

/-! ### Reading and writing -/

/-- The content of a file. -/
def read (store : Store) (path : String) : Except Error Content :=
  if Path.hasZeroCharacter path then .error (.zeroCharacter path)
  else
    match store.locate path with
    | .error cause => .error (.failed cause .opening path)
    | .ok place =>
      match store.find? place with
      | some (.file content) => .ok content
      | some .directory => .error .readsDirectory
      | none => .error (.failed .missing .opening path)

/-- The place a file can be written to, new or old. Its directory must exist. A path that is all
slashes, or ends in a slash or in dots, asks for a directory, which cannot be written. -/
def writable (store : Store) (path : String) : Except Cause (List String) :=
  match followable path with
  | .error cause => .error cause
  | .ok parts =>
    match store.follow (Path.start path) parts.dropLast, parts.getLast? with
    | .error cause, _ => .error cause
    | .ok _, none => .error .isDirectory
    | .ok parent, some name =>
      if !store.isDirectory parent then .error .notDirectory
      else if Path.endsInSlash path then .error .isDirectory
      else
        match store.enter parent name with
        | .error cause => .error cause
        | .ok place => if store.isDirectory place then .error .isDirectory else .ok place

/-- Writes a file. -/
def write (path : String) (content : Content) : EStateM Error Store Unit := do
  if Path.hasZeroCharacter path then throw (.zeroCharacter path)
  match (← get).writable path with
  | .error cause => throw (.failed cause .opening path)
  | .ok place => modify fun store => store.set place (.file content)

/-! ### Making directories -/

/-- Makes the directories that parts name, from a place on. A file in the way is the cause at the
end of the path; before the end, or before a slash, the cause is that it is no directory. -/
def makeDirectoriesFrom (slash : Bool) (place : List String) :
    List String → EStateM Cause Store Unit
  | [] => return ()
  | part :: rest => do
    let store ← get
    match store.enter place part with
    | .error cause => throw cause
    | .ok next =>
      match store.find? next with
      | some .directory => makeDirectoriesFrom slash next rest
      | some (.file _) => throw (if rest.isEmpty && !slash then .inTheWay else .notDirectory)
      | none =>
        modify fun store => store.set next .directory
        makeDirectoriesFrom slash next rest

/-- Makes the directory at a path and those above it. Errors name the path as `shown`. -/
def makeDirectoriesAs (shown path : String) : EStateM Error Store Unit := fun store =>
  if Path.hasZeroCharacter path then .error (.zeroCharacter shown) store
  else
    match followable path with
    | .error cause => .error (.failed cause .creatingDirectory shown) store
    | .ok parts =>
      match makeDirectoriesFrom (Path.endsInSlash path) (Path.start path) parts store with
      | .ok _ made => .ok () made
      | .error cause after => .error (.failed cause .creatingDirectory shown) after

def makeDirectories (path : String) : EStateM Error Store Unit :=
  makeDirectoriesAs path path

/-- Makes the directory of a path whose dots are resolved in the text. Errors name it from the
root. -/
def makeParents (path : String) : EStateM Error Store Unit :=
  match Path.join (Path.resolve path).dropLast with
  | "" => return ()
  | parent => makeDirectoriesAs ("/" ++ parent) parent

/-- A store with one more entry and the directories above it. -/
def put (store : Store) (path : String) (entry : Entry) : Store :=
  let place := Path.resolve path
  match makeParents path store with
  | .ok _ ready => ready.set place entry
  | .error _ ready => ready.set place entry

/-! ### What was created -/

/-- The files in the working directory and below it that another store does not have, with their
paths. -/
def filesNotIn (store before : Store) : List (String × Content) :=
  store.entries.filterMap fun (key, entry) =>
    match entry, before.entries.lookup key with
    | .file content, none => if Path.isOutside key then none else some (key, content)
    | _, _ => none

end Store

end EightBit.Files
