import Ranging.CommandLine.Files

/-!
# Trees of files in memory

A tree of directories and files without links, owned by its user, in which paths are resolved name
by name from the root or from a working directory. What is on the way must be a directory; only
the last name of a path may be one that does not exist yet.
-/

namespace Ranging.CommandLine

/-- The names that lead from the root to a place, the last one first. -/
abbrev Place := List String

/-- What stands at a place. -/
inductive FileNode where
  | directory
  | file (text : String)
  /-- What is not changed by writing: what comes of reading it, and whether it takes a text. -/
  | device (reading : Except FileFault String) (writing : Except FileFault Unit)

/-- The device that is empty and takes every text. -/
def FileNode.sink : FileNode := .device (.ok "") (.ok ())

/-- Directories and files. -/
structure FileTree where
  nodes : List (Place × FileNode)
  /-- The working directory. -/
  start : Place

namespace FileTree

/-- The most bytes in one name. -/
def maxName : Nat := 255

/-- The most bytes in a path. -/
def maxPath : Nat := 4095

/-- What stands at a place, if anything does. -/
def node? (t : FileTree) (place : Place) : Option FileNode :=
  t.nodes.lookup place

/-- Put a node at a place, instead of what stands there. -/
def put (t : FileTree) (place : Place) (node : FileNode) : FileTree :=
  { t with nodes := (place, node) :: t.nodes }

@[simp] theorem node?_put_self (t : FileTree) (place : Place) (node : FileNode) :
    (t.put place node).node? place = some node := by
  simp [node?, put]

theorem node?_put_of_ne (t : FileTree) {place other : Place} (node : FileNode)
    (h : other ≠ place) : (t.put place node).node? other = t.node? other := by
  have : (other == place) = false := by simpa using h
  simp [node?, put, List.lookup_cons, this]

/-- Follow names from a place. -/
def walk (t : FileTree) (place : Place) : List String → Except FileFault Place
  | [] => .ok place
  | name :: rest =>
    match t.node? place with
    | none => .error .notFound
    | some .directory =>
      if name = "." then t.walk place rest
      else if name = ".." then t.walk place.tail rest
      else if maxName < name.utf8ByteSize then .error .nameTooLong
      else t.walk (name :: place) rest
    | some _ => .error .notDirectory

/-- What is put where no directory stands is not on the way anywhere else. -/
theorem walk_put (t : FileTree) {place : Place} (node : FileNode)
    (h : t.node? place ≠ some .directory) (names : List String) (start target : Place)
    (hw : t.walk start names = .ok target) :
    (t.put place node).walk start names = .ok target := by
  induction names generalizing start with
  | nil => exact hw
  | cons name rest ih =>
    cases hs : t.node? start with
    | none => simp [walk, hs] at hw
    | some here =>
      cases here with
      | file | device => simp [walk, hs] at hw
      | directory =>
        have hne : start ≠ place := fun he => h (he ▸ hs)
        simp only [walk, hs, node?_put_of_ne t node hne] at hw ⊢
        split at hw
        · rw [if_pos ‹_›]
          exact ih _ hw
        · rw [if_neg ‹_›]
          split at hw
          · rw [if_pos ‹_›]
            exact ih _ hw
          · rw [if_neg ‹_›]
            split at hw
            · cases hw
            · rw [if_neg ‹_›]
              exact ih _ hw

/-- The place that a path leads to. -/
def locate (t : FileTree) (path : String) : Except FileFault Place :=
  if path.isEmpty then .error .notFound
  else if maxPath < path.utf8ByteSize then .error .nameTooLong
  else
    t.walk (if path.startsWith "/" then [] else t.start) ((path.splitOn "/").filter (· ≠ ""))

theorem locate_put (t : FileTree) {place : Place} (node : FileNode)
    (h : t.node? place ≠ some .directory) (path : String) (target : Place)
    (hl : t.locate path = .ok target) : (t.put place node).locate path = .ok target := by
  simp only [locate] at hl ⊢
  split at hl
  · cases hl
  · rw [if_neg ‹_›]
    split at hl
    · cases hl
    · rw [if_neg ‹_›]
      exact walk_put t node h _ _ _ hl

/-- The text of a file. A path that ends in a slash can only mean a directory. -/
def read (t : FileTree) (path : String) : Except FileFault String := do
  match t.node? (← t.locate path) with
  | none => throw .notFound
  | some .directory => throw .isDirectory
  | some (.file text) => unslashed (.ok text)
  | some (.device reading _) => unslashed reading
where
  unslashed (content : Except FileFault String) : Except FileFault String :=
    if path.endsWith "/" then .error .notDirectory else content

/-- The tree in which a file holds this text and nothing else. -/
def write (t : FileTree) (path text : String) : Except FileFault FileTree := do
  let place ← t.locate path
  if path.endsWith "/" then throw .isDirectory
  match t.node? place with
  | some .directory => throw .isDirectory
  | some (.device _ writing) => writing.map fun _ => t
  | none | some (.file _) => return t.put place (.file text)

/-- A text that has been written is read again, unless it went to a device. -/
theorem read_write (t t' : FileTree) (path text : String) (h : t.write path text = .ok t')
    (hd : ∀ place reading writing, t.locate path = .ok place →
      t.node? place ≠ some (.device reading writing)) : t'.read path = .ok text := by
  cases hl : t.locate path with
  | error fault => simp [write, hl, bind, Except.bind] at h
  | ok place =>
    have hd := fun reading writing => hd place reading writing hl
    by_cases he : path.endsWith "/" = true
    · simp [write, hl, he, bind, Except.bind, throw, throwThe, MonadExceptOf.throw] at h
    · have hn : t.node? place ≠ some .directory ∧ t' = t.put place (.file text) := by
        cases hp : t.node? place with
        | none => simp_all [write, bind, Except.bind, pure, Except.pure]
        | some here => cases here <;> simp_all [write, bind, Except.bind, pure, Except.pure,
            throw, throwThe, MonadExceptOf.throw]
      obtain ⟨hn, rfl⟩ := hn
      simp [read, locate_put t _ hn path place hl, read.unslashed, he, bind, Except.bind]

instance : FileSystem (StateM FileTree) where
  read path := return (← get).read path
  write path text := do
    match (← get).write path text with
    | .ok t =>
      set t
      return .ok ()
    | .error fault => return .error fault

end FileTree

end Ranging.CommandLine
