import Kakoi.Base.Forest
import Kakoi.Plan.Launch

/-! Reads what each `rw-copy` item starts the isolation with. The host is what reading it gives,
with the failures on the way, and does not change meanwhile. -/

namespace Kakoi.CopyFacts

def byteLimit : Nat := 64 <<< 20

def entryLimit : Nat := 4096

/-- A failed operation on the host. -/
structure IoFailure where
  text : String
  cause : IoCause

/-- What is no directory. Opening a special file may itself fail. -/
inductive HostLeaf where
  | file (mode : Nat) (content : List UInt8) (failure : Option IoFailure)
  | symlink (target : Path) (failure : Option IoFailure)
  | special (opening : Option IoFailure)
  | unknown (failure : IoFailure)

structure HostDirectory where
  mode : Nat
  unlisted : Option IoFailure

/-- What is below a directory, each level in the order the host lists it. -/
abbrev HostTree := Forest Name HostDirectory HostLeaf

/-- What is at a real path. -/
inductive HostEntry where
  | directory (unknown : Option IoFailure) (found : HostDirectory) (tree : HostTree)
  | other (leaf : HostLeaf)

/-- An entry a copy left out, with the reason. -/
structure NotCopied where
  item : Path
  path : Path
  reason : String
  deriving DecidableEq

structure CopySources where
  sources : PathMap CopySource := .empty
  notCopied : List NotCopied := []

def modeOf (mode : Nat) : Nat := mode &&& 0o7777

section Diagnostics

variable (item : ResolvedItem)

def uncopied (rest : List Text) : Diagnostic :=
  .path (format ["the `rw-copy` item `", item.written, "` at ", item.real] ++ format rest)

/-- A source that cannot be read ends the run. -/
def unreadable (path : Path) (failure : IoFailure) : Diagnostic :=
  (uncopied item [" cannot be copied: ", path, " cannot be read: ", failure.text]).withIoCause
    failure.cause

def notRegular (path : Path) : Diagnostic :=
  uncopied item [" cannot be copied: ", path,
    " is not a regular file or a directory, so there is no content to copy; use `rw-file` for a socket or a FIFO"]

def tooManyEntries : Diagnostic :=
  uncopied item [" holds more than ", toString entryLimit,
    " entries; name something smaller, or use `ro` to show it without copying it"]

def tooManyBytes (path : Path) : Diagnostic :=
  uncopied item [" holds more than ", toString byteLimit, " bytes (reached at ", path,
    "); name something smaller, or use `ro` to show it without copying it"]

end Diagnostics

/-- What one item may still take. -/
structure Budget where
  entries : Nat := entryLimit
  bytes : Nat := byteLimit

def Budget.takeEntry (item : ResolvedItem) (budget : Budget) : Except Diagnostic Budget :=
  if budget.entries = 0 then .error (tooManyEntries item)
  else .ok { budget with entries := budget.entries - 1 }

def Budget.spend (item : ResolvedItem) (path : Path) (bytes : Nat) (budget : Budget) :
    Except Diagnostic Budget :=
  if budget.bytes < bytes then .error (tooManyBytes item path)
  else .ok { budget with bytes := budget.bytes - bytes }

/-- An operation that fails as the host has it. -/
def attempt (item : ResolvedItem) (path : Path) : Option IoFailure → Except Diagnostic Unit
  | none => .ok ()
  | some failure => .error (unreadable item path failure)

/-- A link is not followed at the path itself. -/
def tooManyLinks : IoFailure := ⟨"Too many levels of symbolic links (os error 40)", ⟨some 40⟩⟩

/-- Reads one regular file with its mode. One byte more than the budget allows is read, so a
file over the limit is refused rather than cut short. -/
def readFile (item : ResolvedItem) (path : Path) (leaf : HostLeaf) (budget : Budget) :
    Except Diagnostic (Nat × FileContent × Budget) :=
  match leaf with
  | .unknown failure => .error (unreadable item path failure)
  | .symlink _ _ => .error (unreadable item path tooManyLinks)
  | .special opening => do
    attempt item path opening
    .error (notRegular item path)
  | .file mode content failure => do
    attempt item path failure
    let bytes := content.take (budget.bytes + 1)
    let budget ← budget.spend item path bytes.length
    return (modeOf mode, .bytes bytes, budget)

/-- What reading a directory has come to. -/
structure Reading where
  budget : Budget := {}
  entries : List CopiedEntry := []
  notCopied : List NotCopied

namespace Reading

def push (reading : Reading) (entry : CopiedEntry) : Reading :=
  { reading with entries := reading.entries ++ [entry] }

def takeEntry (item : ResolvedItem) (reading : Reading) : Except Diagnostic Reading := do
  return { reading with budget := ← reading.budget.takeEntry item }

end Reading

def leftOut (item : ResolvedItem) (path : Path) : NotCopied :=
  ⟨item.real, path, "is not a regular file, a directory, or a symbolic link"⟩

def readLeaf (item : ResolvedItem) (path relative : Path) (leaf : HostLeaf) (reading : Reading) :
    Except Diagnostic Reading :=
  match leaf with
  | .unknown failure => .error (unreadable item path failure)
  | .symlink target failure => do
    let reading ← reading.takeEntry item
    attempt item path failure
    return reading.push (.symlink relative target)
  | .file mode content failure => do
    let reading ← reading.takeEntry item
    let (mode, content, budget) ← readFile item path (.file mode content failure) reading.budget
    return { reading with budget }.push (.file relative mode content)
  | .special _ => do
    let reading ← reading.takeEntry item
    -- a copy of one is not the host's, and no argument makes one in a tmpfs
    return { reading with notCopied := reading.notCopied ++ [leftOut item path] }

/-- The entries of a directory in turn, each directory before what is under it. A symbolic
link is reproduced as a link and not followed. -/
def readEntries (item : ResolvedItem) (directory relative : Path) :
    HostTree → Reading → Except Diagnostic Reading
  | .nil, reading => .ok reading
  | .leaf name leaf rest, reading => do
    let reading ← readLeaf item (directory.join ⟨name⟩) (relative.join ⟨name⟩) leaf reading
    readEntries item directory relative rest reading
  | .branch name found children rest, reading => do
    let reading ← reading.takeEntry item
    let reading := reading.push (.directory (relative.join ⟨name⟩) (modeOf found.mode))
    attempt item (directory.join ⟨name⟩) found.unlisted
    let reading ← readEntries item (directory.join ⟨name⟩) (relative.join ⟨name⟩) children reading
    readEntries item directory relative rest reading

/-- The byte order of names. -/
def nameLe (left right : Name) : Bool := left.map UInt8.toNat ≤ right.map UInt8.toNat

/-- Reads a directory, with the entries of every directory in the order of their names. -/
def readDirectory (item : ResolvedItem) (found : HostDirectory) (tree : HostTree)
    (reading : Reading) : Except Diagnostic Reading := do
  attempt item item.real found.unlisted
  readEntries item item.real ⟨[]⟩ (tree.inOrder nameLe) reading

def notADirectory : IoFailure := ⟨"Not a directory (os error 20)", ⟨some 20⟩⟩

def readCopySource (host : Path → HostEntry) (collected : CopySources) (item : ResolvedItem) :
    Except Diagnostic CopySources :=
  if item.directive ≠ .rwCopy then .ok collected
  else
    match item.kind, host item.real with
    | .directory, .directory unknown found tree => do
      attempt item item.real unknown
      let reading ← readDirectory item found tree { notCopied := collected.notCopied }
      return { sources := collected.sources.insert item.real
                 (.directory (modeOf found.mode) reading.entries)
               notCopied := reading.notCopied }
    | .directory, .other _ => .error (unreadable item item.real notADirectory)
    | .notDirectory, .other leaf => do
      let (mode, content, _) ← readFile item item.real leaf {}
      return { collected with sources := collected.sources.insert item.real (.file mode content) }
    | .notDirectory, .directory .. => .error (notRegular item item.real)

def readCopySources (host : Path → HostEntry) (items : List ResolvedItem) :
    Except Diagnostic CopySources :=
  items.foldlM (readCopySource host) {}

end Kakoi.CopyFacts
