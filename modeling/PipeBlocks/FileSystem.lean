import PipeBlocks.Text.Basic

/-! Files and directories of a system.

The tree hangs from a root. A path is a text with `/` between names, resolved step by step, from the
root if it is absolute and else from the working directory: every name but the last must be a
directory's, `.` and empty names stay where they are, and `..` goes up. A symbolic link stands for
the path it holds, taken from the directory it is in. -/
namespace PipeBlocks

/-- What a file holds. -/
inductive Content where
  | text (t : Text)
  /-- Bytes that are no text in UTF-8. -/
  | bytes (b : ByteArray)

instance : DecidableEq Content
  | .text t, .text u => decidable_of_iff (t = u) ⟨congrArg Content.text, Content.text.inj⟩
  | .bytes a, .bytes b =>
    have := ByteArray.instDecidableEq a b
    decidable_of_iff (a = b) ⟨congrArg Content.bytes, Content.bytes.inj⟩
  | .text _, .bytes _ | .bytes _, .text _ => isFalse nofun

def Content.ofBytes (b : ByteArray) : Content :=
  match String.fromUTF8? b with
  | some s => .text s.toList
  | none => .bytes b

inductive FileError where
  | notFound
  | isDirectory
  | notDirectory
  | notText
  | tooManyLinks
  /-- Any other refusal of the operating system, in its words. -/
  | other (message : String)
deriving DecidableEq, Repr

def FileError.message : FileError → String
  | .notFound => "No such file or directory (os error 2)"
  | .isDirectory => "Is a directory (os error 21)"
  | .notDirectory => "Not a directory (os error 20)"
  | .notText => "stream did not contain valid UTF-8"
  | .tooManyLinks => "Too many levels of symbolic links (os error 40)"
  | .other message => message

def Content.read : Content → Except FileError Text
  | .text t => .ok t
  | .bytes _ => .error .notText

/-- The names on the way from the root. -/
abbrev Location := List Text

inductive Node where
  | file (content : Content)
  | directory
  /-- A symbolic link, with the path it holds. -/
  | link (target : Text)
  /-- What can be neither read nor entered, for want of permission say. -/
  | barred (cause : FileError)
deriving DecidableEq

def Node.target? : Node → Option Text
  | .link target => some target
  | _ => none

/-- The nodes of a system, each location at most once. A file with several names stands at one of
them, and the others are links to it. -/
structure FileSystem where
  nodes : List (Location × Node) := []
  workingDirectory : Location := []
  /-- The locations that cannot be written, and why. -/
  refusals : List (Location × FileError) := []
deriving DecidableEq

namespace FileSystem

def node? (fs : FileSystem) (l : Location) : Option Node :=
  if l = [] then some .directory else fs.nodes.lookup l

/-- Why a location cannot be written, if it cannot. -/
def refusal? (fs : FileSystem) (l : Location) : Option FileError := fs.refusals.lookup l

/-- Puts a node at a location, in place of what is there. -/
def set (fs : FileSystem) (l : Location) (n : Node) : FileSystem :=
  { fs with
    nodes :=
      if fs.nodes.any (·.1 = l) then
        fs.nodes.map fun entry => if entry.1 = l then (l, n) else entry
      else fs.nodes ++ [(l, n)] }

/-! ### Paths -/

/-- The names in a path. -/
def names : Text → List Text
  | [] => [[]]
  | c :: r => if c = '/' then [] :: names r else (names r).modifyHead (c :: ·)

def isAbsolute (path : Text) : Bool := path.head? = some '/'

/-- Where a path begins that is given in a directory. -/
def origin (directory : Location) (path : Text) : Location :=
  if isAbsolute path then [] else directory

/-- Where a name leads from a directory. A root is its own parent. -/
def next (l : Location) (name : Text) : Location :=
  if name = [] || name = ['.'] then l
  else if name = ['.', '.'] then l.dropLast
  else l ++ [name]

/-- Takes a step from a location, which must be a directory. -/
def step (fs : FileSystem) (l : Location) (name : Text) : Except FileError Location :=
  match fs.node? l with
  | some .directory => .ok (next l name)
  | some (.file _) | some (.link _) => .error .notDirectory
  | some (.barred cause) => .error cause
  | none => .error .notFound

/-- Follows names from a location. Where a link is met, `follow` goes on: it is given the directory
the link is in, the path it holds, and the names that are left. -/
def walkWith (fs : FileSystem) (follow : Location → Text → List Text → Except FileError Location) :
    Location → List Text → Except FileError Location
  | l, [] => .ok l
  | l, name :: rest => do
    let l ← fs.step l name
    match (fs.node? l).bind Node.target? with
    | some target => follow l.dropLast target rest
    | none => fs.walkWith follow l rest

/-- Follows names from a location, past so many links at most. -/
def walk (fs : FileSystem) : Nat → Location → List Text → Except FileError Location
  | 0 => fs.walkWith fun _ _ _ => .error .tooManyLinks
  | links + 1 => fs.walkWith fun directory target rest =>
      fs.walk links (origin directory target) (names target ++ rest)

/-- How many links a path may lead past. -/
def maxLinks : Nat := 40

def resolve (fs : FileSystem) (path : Text) : Except FileError Location :=
  if path = [] then .error .notFound
  else fs.walk maxLinks (origin fs.workingDirectory path) (names path)

/-! ### Reading and writing -/

/-- The text of the file at a path. -/
def read (fs : FileSystem) (path : Text) : Except FileError Text := do
  match fs.node? (← fs.resolve path) with
  | some (.file content) => content.read
  | some .directory => throw .isDirectory
  | some (.barred cause) => throw cause
  | some (.link _) | none => throw .notFound

/-- Replaces the text of the file at a path, or makes the file. -/
def write (fs : FileSystem) (path t : Text) : Except FileError FileSystem := do
  let l ← fs.resolve path
  match fs.node? l, fs.refusal? l with
  | some .directory, _ => throw .isDirectory
  | some (.barred cause), _ | _, some cause => throw cause
  | _, none => return fs.set l (.file (.text t))

end FileSystem

end PipeBlocks
