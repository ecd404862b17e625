import SqlBatch.Failure

/-! Looking up a path among the files of a working directory: files with their bytes, and
directories. A path may leave the working directory upwards; outside there are directories all the
way up to the root, and nothing in them has a name. -/

namespace SqlBatch.Cli

inductive Entry where
  | file (bytes : List UInt8)
  | directory
  deriving DecidableEq, Repr

abbrev Files := List (String × Entry)

inductive Place where
  | outside
  | inside (names : List String)
  deriving DecidableEq, Repr

def Place.parent : Place → Place
  | .outside => .outside
  | .inside names => if names.isEmpty then .outside else .inside names.dropLast

def partsOf (path : String) : List String := (path.toList.splitOn '/').map String.ofList

def isStill (part : String) : Bool := part = "" || part = "."

def nameLimit : Nat := 255

def pathLimit : Nat := 4095

namespace Files

/-- What stands at a place; the directories that a file is in are there too. -/
def entry? (files : Files) (names : List String) : Option Entry :=
  let named := files.map fun f => ((partsOf f.1).filter (!isStill ·), f.2)
  match named.lookup names with
  | some e => some e
  | none => if named.any fun f => names.isPrefixOf f.1 then some .directory else none

def walk (files : Files) (place : Place) : List String → Except FileProblem (List UInt8)
  | [] => .error .isDirectory
  | part :: parts =>
    if isStill part then walk files place parts
    else if part = ".." then walk files place.parent parts
    else if nameLimit < part.utf8ByteSize then .error .nameTooLong
    else
      match place with
      | .outside => .error .notFound
      | .inside names =>
        match files.entry? (names ++ [part]) with
        | none => .error .notFound
        | some .directory => walk files (.inside (names ++ [part])) parts
        | some (.file bytes) => if parts.isEmpty then .ok bytes else .error .notDirectory

def read (files : Files) (path : String) : Except FileProblem (List UInt8) :=
  if path.toList.contains '\x00' then .error .nameBroken
  else if path.isEmpty then .error .notFound
  else if pathLimit < path.utf8ByteSize then .error .nameTooLong
  else walk files (if path.toList.head? = some '/' then .outside else .inside []) (partsOf path)

end Files
end SqlBatch.Cli
