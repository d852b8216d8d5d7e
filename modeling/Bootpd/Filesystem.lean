import Bootpd.Lib.LexicalPath
import Bootpd.Std

/-!
# Paths, files and input streams

What the program uses of `std::filesystem` and `std::ifstream`, on Windows, the only system it
builds for. A path is split into root name, root directory and components when it is made, the way
the standard's path grammar splits it.

## Paths

Both slashes separate. A root name is a drive, a server, or one of the prefixes for the names of the
system itself. A component may be empty, at the end of a path that ends with a slash. `append` is
`operator/`, with the cases of the standard for a right side that has a root of its own, and
`lexicallyNormal` is built on `Lib.LexicalPath`. Comparing paths is comparing their characters: case
and short names are not resolved.

## Files

A file is the bytes it holds, fewer than 2^63 of them. Nothing in the program writes to a file, and
a file system here is a function of the path. A session may be given another one for each of its
calls; `System` has it so.

## Streams

A stream has the contents of its file from the moment it is opened. In text mode the system turns CR
LF into LF while it reads, and may take a byte 26 for the end. Both are in `textOf`, for a stream
that is read to its end. A reader that seeks and reads in pieces gets the translation only.

## Main definitions

* `Path.ofString`, `Path.append`, `Path.lexicallyNormal`, `Path.Inside` — paths
* `Filesystem`, `fileExists`, `isRegularFile`, `fileSize` — the three questions
* `Ifstream`, `Ifstream.read` — a stream, and a seek and a read
-/

namespace Bootpd

open LexicalPath

/-! ### Paths -/

/-- `std::filesystem::path`. -/
structure Path where
  /-- `root_name()`: a drive such as `C:`, or a server such as `\\host`. -/
  rootName : StdString
  /-- `has_root_directory()`. A server is always followed by its root directory. -/
  rootDirectory : Bool
  /-- The components of `relative_path()`. A separator at the end gives an empty last one. -/
  relative : List StdString
deriving DecidableEq, Repr

namespace Path

def isSlash (c : UInt8) : Bool := c == 47 || c == 92

def isLetter (c : UInt8) : Bool := (97 ≤ c && c ≤ 122) || (65 ≤ c && c ≤ 90)

/-- A root name that is a drive. -/
def isDrive (name : StdString) : Bool :=
  match name with
  | [c, 58] => isLetter c
  | _ => false

/-- `\??\` in front of a path: the last of the special prefixes, not covered by the rule for
servers. -/
def isNtPrefix (s : StdString) : Bool :=
  match s with
  | a :: 63 :: 63 :: d :: t => isSlash a && isSlash d && !t.head?.any isSlash
  | _ => false

/-- A server, or one of the prefixes `\\?\` and `\\.\`. -/
def isServerPrefix (s : StdString) : Bool :=
  match s with
  | a :: b :: c :: _ => isSlash a && isSlash b && !isSlash c
  | _ => false

/-- The length of the root name in front of a path. -/
def rootNameLength (s : StdString) : ℕ :=
  if isDrive (s.take 2) then 2
  else if isNtPrefix s then 3
  else if isServerPrefix s then 2 + ((s.drop 2).takeWhile fun c => !isSlash c).length
  else 0

/-- The components of a path without root: a run of separators is one separator. -/
def splitComponents (s : StdString) : List StdString :=
  let parts := s.splitOnP isSlash
  if s.isEmpty then [] else parts.dropLast.filter (fun p => !p.isEmpty) ++ parts.getLast?.toList

/-- The constructor from a string. -/
def ofString (s : StdString) : Path :=
  let name := s.take (rootNameLength s)
  let rest := s.drop (rootNameLength s)
  { rootName := name
    rootDirectory := rest.head?.any isSlash || (!name.isEmpty && !isDrive name)
    relative := splitComponents (rest.dropWhile isSlash) }

/-- `is_absolute()`. -/
def isAbsolute (p : Path) : Bool := !p.rootName.isEmpty && p.rootDirectory

/-- `base / p`. A path that is absolute or has another root name replaces `base`, one that starts
at the root directory replaces all of `base` but its root name, and any other is appended. -/
def append (base p : Path) : Path :=
  if p.isAbsolute || (!p.rootName.isEmpty && p.rootName != base.rootName) then p
  else if p.rootDirectory then { p with rootName := base.rootName }
  else
    let tail := if p.relative.isEmpty && !base.relative.isEmpty then [[]] else p.relative
    { base with relative := base.relative.filter (fun c => !c.isEmpty) ++ tail }

/-- `string()`, up to the choice and the number of separators. -/
def string (p : Path) : StdString :=
  p.rootName ++ (if p.rootDirectory then lit "\\" else []) ++
    List.intercalate (lit "\\") p.relative

/-- What a component means to `lexically_normal()`. -/
def component (c : StdString) : Component StdString :=
  if c = [] ∨ c = lit "." then .here else if c = lit ".." then .parent else .name c

/-- The steps of a path from its root, or from wherever it is resolved. -/
def components (p : Path) : List (Component StdString) := p.relative.map component

/-- `lexically_normal()`, below the root. -/
def lexicallyNormal (p : Path) : Place StdString := normal p.rootDirectory p.components

/-- `p` has the root of `base`, and is `base` or lies below it once both are normalised. -/
def Inside (base p : Path) : Prop :=
  p.rootName = base.rootName ∧ p.rootDirectory = base.rootDirectory ∧
    base.lexicallyNormal.Contains p.lexicallyNormal

instance (base p : Path) : Decidable (base.Inside p) := inferInstanceAs (Decidable (_ ∧ _ ∧ _))

example : ofString (lit "C:\\tftp/boot//a.bin") =
    ⟨lit "C:", true, [lit "tftp", lit "boot", lit "a.bin"]⟩ := by decide

end Path

/-! ### Files -/

/-- A regular file. Positions in it are signed 64-bit numbers. -/
structure File where
  content : List UInt8
  size_lt : content.length < 2 ^ 63

/-- What a path leads to. -/
inductive Entry where
  | notFound
  /-- A directory, a device. -/
  | irregular
  /-- A regular file, and whether it can be opened for reading. -/
  | regular (file : File) (readable : Bool)
  /-- Asking for it fails, for a reason other than that there is no such file. -/
  | inaccessible (e : Exception)

abbrev Filesystem := Path → Entry

namespace Filesystem

/-- `exists`. -/
def fileExists (fs : Filesystem) (p : Path) : Except Exception Bool :=
  match fs p with
  | .notFound => .ok false
  | .inaccessible e => .error e
  | _ => .ok true

/-- `is_regular_file`. -/
def isRegularFile (fs : Filesystem) (p : Path) : Except Exception Bool :=
  match fs p with
  | .regular _ _ => .ok true
  | .inaccessible e => .error e
  | _ => .ok false

/-- `file_size`. -/
def fileSize (fs : Filesystem) (p : Path) : Except Exception UInt64 :=
  match fs p with
  | .regular file _ => .ok (.ofNat file.content.length)
  | .inaccessible e => .error e
  | _ => .error (.filesystemError (lit "file_size"))

/-- What the three calls throw. -/
theorem error_of_fileExists {fs : Filesystem} {p : Path} {e : Exception}
    (h : fs.fileExists p = .error e) : fs p = .inaccessible e := by
  rw [fileExists] at h
  cases hentry : fs p <;> rw [hentry] at h <;> cases h
  rfl

theorem error_of_isRegularFile {fs : Filesystem} {p : Path} {e : Exception}
    (h : fs.isRegularFile p = .error e) : fs p = .inaccessible e := by
  rw [isRegularFile] at h
  cases hentry : fs p <;> rw [hentry] at h <;> cases h
  rfl

theorem error_of_fileSize {fs : Filesystem} {p : Path} {e : Exception}
    (h : fs.fileSize p = .error e) :
    fs p = .inaccessible e ∨ e = .filesystemError (lit "file_size") := by
  rw [fileSize] at h
  cases hentry : fs p <;> rw [hentry] at h <;> cases h
  case inaccessible => exact .inl rfl
  all_goals exact .inr rfl

/-- Sizes of files are less than `2 ^ 63`. -/
theorem lt_of_fileSize {fs : Filesystem} {p : Path} {size : UInt64}
    (h : fs.fileSize p = .ok size) : size.toNat < 2 ^ 63 := by
  rw [fileSize] at h
  cases hentry : fs p <;> rw [hentry] at h <;> cases h
  rename_i file readable
  exact (Nat.mod_le _ _).trans_lt file.size_lt

end Filesystem

/-! ### Input streams -/

/-- `std::ifstream`. -/
structure Ifstream where
  content : List UInt8
  binary : Bool
  /-- `fail()`: once set, positioning and reading do nothing. -/
  fail : Bool
deriving DecidableEq

/-- What a stream in text mode makes of the ends of lines. -/
def textMode : List UInt8 → List UInt8
  | 13 :: 10 :: s => 10 :: textMode s
  | c :: s => c :: textMode s
  | [] => []

/-- What a stream in text mode delivers of a whole file. Byte 26 ends the text. -/
def textOf (content : List UInt8) : List UInt8 := textMode (content.takeWhile (· ≠ 26))

namespace Ifstream

/-- The constructor. A file that cannot be opened gives a stream that has failed. -/
def ofPath (fs : Filesystem) (p : Path) (binary : Bool) : Ifstream :=
  match fs p with
  | .regular file true => ⟨file.content, binary, false⟩
  | _ => ⟨[], binary, true⟩

/-- `seekg(offset)` and `read(data, length)`: the bytes delivered. Fewer than `length` of them set
`fail`. The offset counts bytes of the file in either mode. In text mode the ends of lines are
translated and nothing else is; a byte 26, where the system may end the text, is not looked at. -/
def read (s : Ifstream) (offset length : ℕ) : List UInt8 × Ifstream :=
  if s.fail then ([], s)
  else
    let rest := s.content.drop offset
    let bytes := (if s.binary then rest else textMode rest).take length
    (bytes, { s with fail := bytes.length < length })

theorem length_read_le (s : Ifstream) (offset length : ℕ) :
    (s.read offset length).1.length ≤ length := by
  rw [read]
  split
  · exact Nat.zero_le _
  · exact List.length_take_le _ _

/-- A binary stream delivers the bytes at the offset, and does not fail within the file. -/
theorem read_binary (content : List UInt8) {offset length : ℕ}
    (h : offset + length ≤ content.length) :
    read ⟨content, true, false⟩ offset length =
      ((content.drop offset).take length, ⟨content, true, false⟩) := by
  have hlen : ((content.drop offset).take length).length = length := by
    rw [List.length_take, List.length_drop]
    omega
  simp [read, hlen]

end Ifstream

end Bootpd
