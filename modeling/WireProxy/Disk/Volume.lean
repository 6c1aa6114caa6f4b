import WireProxy.Disk.Basic
import WireProxy.Text.FreeName

/-!
# Volumes

A volume is a disk in memory: directories and files, each under the list of names that leads to it
from the top, and the working directory, where relative paths begin.
-/

namespace WireProxy

inductive Item where
  | file (content : ByteArray)
  | directory
  deriving Inhabited

def Item.isDirectory : Item → Bool
  | directory => true
  | file _ => false

/-- The names from the top of the volume to an item. -/
abbrev Route := List String

/-- The order of a listing: a directory before what it holds, names by code point. -/
def routeLe : Route → Route → Bool
  | [], _ => true
  | _ :: _, [] => false
  | a :: as, b :: bs => a < b || (a == b && routeLe as bs)

structure Volume where
  /-- All but the top directory. -/
  items : List (Route × Item) := []
  /-- The working directory. -/
  home : Route := []
  deriving Inhabited

namespace Volume

def item? (v : Volume) (route : Route) : Option Item :=
  if route = [] then some .directory else v.items.lookup route

def putIn (route : Route) (item : Item) : List (Route × Item) → List (Route × Item)
  | [] => [(route, item)]
  | (first, old) :: rest =>
      if first = route then (route, item) :: rest else (first, old) :: putIn route item rest

def put (v : Volume) (route : Route) (item : Item) : Volume :=
  { v with items := putIn route item v.items }

def erase (v : Volume) (route : Route) : Volume :=
  { v with items := v.items.filter (·.1 ≠ route) }

def nameLimit : Nat := 255 -- bytes

/-- Goes on from a route by the parts of a path.  All but the last thing on the way must be
directories. -/
def walk (v : Volume) : Route → List String → Except DiskFault Route
  | here, [] => .ok here
  | here, part :: rest =>
      match v.item? here with
      | none => .error .notFound
      | some (.file _) => .error .notDirectory
      | some .directory =>
          if part = "" ∨ part = "." then v.walk here rest
          else if part = ".." then v.walk here.dropLast rest
          else if nameLimit < part.utf8ByteSize then .error .nameTooLong
          else v.walk (here ++ [part]) rest

def pathLimit : Nat := 4095 -- bytes

def checkPath (path : String) : Except DiskFault Unit :=
  if path = "" then .error .notFound
  else if path.toList.contains '\x00' then .error .notPath
  else if pathLimit < path.utf8ByteSize then .error .nameTooLong
  else .ok ()

def start (v : Volume) (path : String) : Route :=
  if isAbsolute path then [] else v.home

/-- The route that a path leads to; there need be nothing there. -/
def route (v : Volume) (path : String) : Except DiskFault Route := do
  checkPath path
  v.walk (v.start path) (pathParts path)

def find (v : Volume) (path : String) : Except DiskFault (Route × Item) := do
  let route ← v.route path
  match v.item? route with
  | some item => return (route, item)
  | none => .error .notFound

def findDirectory (v : Volume) (path : String) : Except DiskFault Route := do
  match ← v.find path with
  | (route, .directory) => return route
  | (_, .file _) => .error .notDirectory

def withoutEndSlashes (path : String) : List Char :=
  (path.toList.reverse.dropWhile (· == '/')).reverse

structure Leaf where
  directory : Route
  name : String
  slashed : Bool

def Leaf.isStep (leaf : Leaf) : Bool :=
  leaf.name == "" || leaf.name == "." || leaf.name == ".."

def Leaf.isTooLong (leaf : Leaf) : Bool :=
  nameLimit < leaf.name.utf8ByteSize

def Leaf.route (leaf : Leaf) : Route :=
  leaf.directory ++ [leaf.name]

def leaf (v : Volume) (path : String) : Except DiskFault Leaf := do
  checkPath path
  let body := withoutEndSlashes path
  let parts := (body.splitOn '/').map String.ofList
  let directory ← v.walk (v.start path) (parts.dropLast ++ ["."])
  return ⟨directory, parts.getLastD "", body.length < path.toList.length⟩

def hasDirectory (v : Volume) (route : Route) : Bool :=
  (v.item? route).any (·.isDirectory)

/-- The route of a file that is moved to a path: no slash may follow its name, and no directory may
be in its place. -/
def destination (v : Volume) (path : String) : Except DiskFault Route := do
  let leaf ← v.leaf path
  if leaf.isStep then .error .busy
  else if leaf.isTooLong then .error .nameTooLong
  else if leaf.slashed then .error .notDirectory
  else if v.hasDirectory leaf.route then .error .isDirectory
  else return leaf.route

def contentAt (v : Volume) (path : String) : Except DiskFault ByteArray := do
  match ← v.find path with
  | (_, .file content) => return content
  | (_, .directory) => .error .isDirectory

def hasFile (v : Volume) (path : String) : Bool :=
  (v.contentAt path).isOk

/-- Writes a file; what can only be a directory is none, whether it is there or not. -/
def storeAt (v : Volume) (path : String) (content : ByteArray) : Except DiskFault Volume := do
  let leaf ← v.leaf path
  if leaf.isStep || leaf.slashed then .error .isDirectory
  else if leaf.isTooLong then .error .nameTooLong
  else if v.hasDirectory leaf.route then .error .isDirectory
  else return v.put leaf.route (.file content)

def deleteAt (v : Volume) (path : String) : Except DiskFault Volume := do
  match ← v.find path with
  | (route, .file _) => return v.erase route
  | (_, .directory) => .error .isDirectory

def addDirectory (v : Volume) (path : String) : Except DiskFault Volume := do
  let leaf ← v.leaf path
  if leaf.isStep then .error .alreadyExists
  else if leaf.isTooLong then .error .nameTooLong
  else if (v.item? leaf.route).isSome then .error .alreadyExists
  else return v.put leaf.route .directory

/-- A name for a staged file.  It begins with a slash and occurs on no route of the volume, so no
path leads to it. -/
def stagingName (v : Volume) : String :=
  freeName "/" (v.home ++ v.items.flatMap (·.1))

/-- The full path of a staged file, by which it is opened; its own name has ten bytes. -/
def stagedPath (v : Volume) (directory : String) : String :=
  joinPath (joinPath ("/" ++ "/".intercalate v.home) directory) ".tmp000000"

def stagingRoute (v : Volume) (path : String) : Except DiskFault Route := do
  let directory := stagingDirectory path
  checkPath (v.stagedPath directory)
  let route ← v.findDirectory directory
  return route ++ [v.stagingName]

def createFor (v : Volume) (path : String) : Except DiskFault (Route × Volume) := do
  let route ← v.stagingRoute path
  return (route, v.put route (.file .empty))

def moveTo (v : Volume) (staged : Route) (path : String) : Except DiskFault Volume := do
  let route ← v.destination path
  match v.item? staged with
  | some item => return (v.erase staged).put route item
  | none => .error .notFound

def listing (v : Volume) : List (Route × Item) :=
  v.items.mergeSort fun a b => routeLe a.1 b.1

def disk : Disk (StateM Volume) Route where
  read path := do return (← get).contentAt path
  isFile path := do return (← get).hasFile path
  create path := do
    match (← get).createFor path with
    | .ok (route, v) => set v; return .ok route
    | .error fault => return .error fault
  fill staged content := do
    modify (·.put staged (.file content))
    return .ok ()
  sync _ := return .ok ()
  commit staged path := do
    match (← get).moveTo staged path with
    | .ok v => set v; return .ok ()
    | .error fault => return .error fault
  discard staged := modify (·.erase staged)
  remove path := do
    match (← get).deleteAt path with
    | .ok v => set v; return .ok ()
    | .error fault => return .error fault

end Volume

end WireProxy
