/-
Names of files, followed part by part from the current folder.

* `Folder`: what can be read under each name.
* `Folder.ofEntries`: the current folder by its entries; a part of a name may also lead to the
  folder itself, or up and out of it.
* `Target.ofName?`: where a new file of a name would stand if the current folder is empty.
-/
import Transversal.Fault

namespace Transversal

/-- What can be read under each name, or why nothing can. -/
abbrev Folder := String → Except NameFlaw (List UInt8)

/-- The bytes of a file, or the trouble with it. -/
def Folder.open? (folder : Folder) (name : String) : Except Fault (List UInt8) :=
  if name.contains '\x00' then .error (.value .nulInFileName)
  else match folder name with
    | .ok bytes => .ok bytes
    | .error flaw => .error (.file (.unusable flaw name))

/-- An entry of the current folder. The folders in it are empty. -/
inductive Entry
  | file (bytes : List UInt8)
  | folder

/-- Where a name has led to so far: the current folder, a folder in it, a folder that it is in, or
a file. -/
inductive Spot
  | current
  | inside
  | above
  | file (bytes : List UInt8)

/-- The most bytes that a part of a name may have. -/
def maxPartBytes : Nat := 255

/-- The most bytes that a whole name may have. -/
def maxNameBytes : Nat := 4095

/-- The parts of a name between slashes. -/
def nameParts (name : String) : List String := name.splitOn "/"

/-- A part that stays in the folder it is met in. -/
def isIdle (part : String) : Bool := part = "" || part = "."

namespace Spot

/-- Where a name starts: with a slash it does so far above the current folder. -/
def start (name : String) : Spot := if name.startsWith "/" then .above else .current

/-- One part further. Nothing is known by name above the current folder. -/
def follow (entries : String → Option Entry) (spot : Spot) (part : String) :
    Except NameFlaw Spot :=
  match spot with
  | .file _ => .error .notDirectory
  | .current =>
    if isIdle part then .ok .current
    else if part = ".." then .ok .above
    else if maxPartBytes < part.utf8ByteSize then .error .nameTooLong
    else match entries part with
      | some (.file bytes) => .ok (.file bytes)
      | some .folder => .ok .inside
      | none => .error .missing
  | .inside | .above =>
    if isIdle part then .ok spot
    else if part = ".." then .ok (match spot with
      | .inside => .current
      | _ => .above)
    else if maxPartBytes < part.utf8ByteSize then .error .nameTooLong
    else .error .missing

/-- Where a name leads to. -/
def ofName? (entries : String → Option Entry) (name : String) : Except NameFlaw Spot :=
  if name.isEmpty then .error .missing
  else if maxNameBytes < name.utf8ByteSize then .error .nameTooLong
  else (nameParts name).foldlM (follow entries) (start name)

end Spot

/-- The current folder by its entries. -/
def Folder.ofEntries (entries : String → Option Entry) : Folder := fun name => do
  match ← Spot.ofName? entries name with
  | .file bytes => pure bytes
  | _ => throw .isDirectory

/-- Where a new file stands: in the current folder under a name of its own, or elsewhere. -/
inductive Target
  | current (part : String)
  | elsewhere
deriving DecidableEq

namespace Target

/-- The folder that a name is in, without parts that change nothing. Exactly two slashes at the
front are kept. -/
def folderText (name : String) : String :=
  let slashes := (name.toList.takeWhile (· = '/')).length
  let root := if slashes = 0 then "" else if slashes = 2 then "//" else "/"
  let text := root ++ "/".intercalate ((nameParts name).filter (!isIdle ·)).dropLast
  if text.isEmpty then "." else text

/-- That folder must be there. -/
def checkFolder (folder : String) : Except Fault Unit :=
  let absent := Fault.file (.noFolder folder)
  if folder.contains '\x00' then .error absent
  else match Spot.ofName? (fun _ => none) folder with
    | .error .nameTooLong => .error (.file (.unusable .nameTooLong folder))
    | .error _ => .error absent
    | .ok _ => .ok ()

/-- Where a new file goes. A name that ends in a slash, or in a part that names no entry, can only
be that of a folder. -/
def place? (name : String) : Except NameFlaw Target :=
  if maxNameBytes < name.utf8ByteSize then .error .nameTooLong
  else do
    let parts := nameParts name
    let named := (parts.reverse.dropWhile (· = "")).reverse
    let spot ← named.dropLast.foldlM (Spot.follow fun _ => none) (Spot.start name)
    let last := named.getLastD ""
    if isIdle last || last = ".." || named.length < parts.length then throw .isDirectory
    if maxPartBytes < last.utf8ByteSize then throw .nameTooLong
    match spot with
    | .current => pure (.current last)
    | _ => pure .elsewhere

/-- Where a new file of a name stands. Its folder is looked at first. -/
def ofName? (name : String) : Except Fault Target := do
  checkFolder (folderText name)
  if name.contains '\x00' then throw (.value .nulInFileName)
  match place? name with
  | .ok target => pure target
  | .error flaw => throw (.file (.unusable flaw name))

end Target

end Transversal
