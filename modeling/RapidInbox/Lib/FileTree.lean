import Mathlib.Data.List.Basic

/-!
# File trees

A directory tree as the system calls relative to a directory see it: opening a chain of directories
without following links, looking an entry up, removing one, and walking over the files.
-/

/-- A tree with names in `ν` and files that hold `φ`.  A directory has a list of names and an entry at
    each of them; a directory that is not open to the process can neither be listed nor opened. -/
inductive FileTree (ν φ : Type) where
  | file (data : φ)
  | dir (isOpen : Bool) (names : List ν) (child : ν → FileTree ν φ)
  /-- a symbolic link, to a directory or to something else -/
  | link (toDirectory : Bool)
  /-- a socket, a pipe or a device -/
  | special

namespace FileTree

variable {ν φ : Type} [DecidableEq ν]

/-- Why a chain of directories cannot be opened. -/
inductive OpenError where
  /-- `ENOENT` -/
  | missing
  /-- `ENOTDIR` or `ELOOP` -/
  | notDirectory
  /-- `EACCES` -/
  | denied
  /-- a name that no file can have -/
  | badName
  deriving DecidableEq

/-- Open the tree itself and then the directories of a path, one in the other; `valid` says which
    names a file can have. -/
def openDir (valid : ν → Bool) : FileTree ν φ → List ν → Except OpenError Unit
  | .dir true _ _, [] => .ok ()
  | .dir true names child, name :: path =>
    if valid name then
      if name ∈ names then openDir valid (child name) path else .error .missing
    else .error .badName
  | .dir false _ _, _ => .error .denied
  | .file _, _ => .error .notDirectory
  | .link _, _ => .error .notDirectory
  | .special, _ => .error .notDirectory

/-- What is at a path. -/
def get? : FileTree ν φ → List ν → Option (FileTree ν φ)
  | t, [] => some t
  | .dir _ names child, name :: path => if name ∈ names then get? (child name) path else none
  | .file _, _ :: _ => none
  | .link _, _ :: _ => none
  | .special, _ :: _ => none

/-- The tree without the entry at a path. -/
def remove : FileTree ν φ → List ν → FileTree ν φ
  | .dir isOpen names child, [name] => .dir isOpen (names.filter (· ≠ name)) child
  | .dir isOpen names child, name :: next :: path =>
    .dir isOpen names fun other =>
      if other = name then remove (child other) (next :: path) else child other
  | t, _ => t

/-- `rmdir` succeeds on an empty directory. -/
def isEmptyDir (t : FileTree ν φ) (path : List ν) : Bool :=
  match t.get? path with
  | some (.dir _ [] _) => true
  | _ => false

def isDir : FileTree ν φ → Bool
  | .dir _ _ _ => true
  | _ => false

/-- What `os.walk` takes for a directory: it asks without minding links. -/
def looksLikeDir : FileTree ν φ → Bool
  | .dir _ _ _ => true
  | .link toDirectory => toDirectory
  | _ => false

/-- The paths of the files that `os.walk` comes by, the files of a directory first and then those of
    its directories; it passes over a directory that it cannot list. -/
def walkFiles : FileTree ν φ → List (List ν)
  | .dir true names child =>
    (names.filter fun name => !(child name).looksLikeDir).map (fun name => [name]) ++
      names.flatMap fun name => (walkFiles (child name)).map (name :: ·)
  | _ => []

variable {t e : FileTree ν φ} {path removed : List ν}

section Steps

variable {isOpen : Bool} {names : List ν} {child : ν → FileTree ν φ} {name next : ν} {valid : ν → Bool}

@[simp] theorem openDir_nil : (dir true names child).openDir valid [] = .ok () := rfl

@[simp] theorem openDir_cons :
    (dir true names child).openDir valid (name :: path) =
      if valid name then
        if name ∈ names then (child name).openDir valid path else .error .missing
      else .error .badName := rfl

@[simp] theorem openDir_closed : (dir false names child).openDir valid path = .error .denied := by
  cases path <;> rfl

@[simp] theorem openDir_file {data : φ} :
    (file data : FileTree ν φ).openDir valid path = .error .notDirectory := by
  cases path <;> rfl

@[simp] theorem openDir_link {toDirectory : Bool} :
    (link toDirectory : FileTree ν φ).openDir valid path = .error .notDirectory := by
  cases path <;> rfl

@[simp] theorem openDir_special :
    (special : FileTree ν φ).openDir valid path = .error .notDirectory := by
  cases path <;> rfl

@[simp] theorem get?_dir_cons :
    (dir isOpen names child).get? (name :: path) =
      if name ∈ names then (child name).get? path else none := rfl

@[simp] theorem get?_file_cons {data : φ} : (file data : FileTree ν φ).get? (name :: path) = none := rfl

@[simp] theorem get?_link_cons {toDirectory : Bool} :
    (link toDirectory : FileTree ν φ).get? (name :: path) = none := rfl

@[simp] theorem get?_special_cons : (special : FileTree ν φ).get? (name :: path) = none := rfl

@[simp] theorem remove_dir_last :
    (dir isOpen names child).remove [name] = dir isOpen (names.filter (· ≠ name)) child := rfl

@[simp] theorem remove_dir_cons :
    (dir isOpen names child).remove (name :: next :: path) =
      dir isOpen names fun other =>
        if other = name then (child other).remove (next :: path) else child other := rfl

omit [DecidableEq ν] in
theorem walkFiles_open :
    (dir true names child).walkFiles =
      (names.filter fun name => !(child name).looksLikeDir).map (fun name => [name]) ++
        names.flatMap fun name => (child name).walkFiles.map (name :: ·) := rfl

end Steps

/-! ## Lookup -/

@[simp] theorem get?_nil : t.get? [] = some t := by
  cases t <;> rfl

/-- What is below a name is below a directory with that name. -/
theorem dir_of_get?_cons {name : ν} (h : t.get? (name :: path) = some e) :
    ∃ isOpen names child,
      t = .dir isOpen names child ∧ name ∈ names ∧ (child name).get? path = some e := by
  cases t with
  | dir isOpen names child =>
    rw [get?_dir_cons] at h
    split at h
    · rename_i hname
      exact ⟨isOpen, names, child, rfl, hname, h⟩
    · cases h
  | file data => cases h
  | link toDirectory => cases h
  | special => cases h

theorem get?_dir_cons_of_mem {isOpen : Bool} {names : List ν} {child : ν → FileTree ν φ} {name : ν}
    (hname : name ∈ names) (h : (child name).get? path = some e) :
    (dir isOpen names child).get? (name :: path) = some e := by
  rw [get?_dir_cons, if_pos hname]
  exact h

/-- A chain of directories in front of something does not break off. -/
theorem openDir_ne_missing (valid : ν → Bool) (h : t.get? path = some e) :
    t.openDir valid path.dropLast ≠ .error .missing := by
  induction path generalizing t with
  | nil =>
    cases t with
    | dir isOpen names child => cases isOpen <;> simp
    | file data => simp
    | link toDirectory => simp
    | special => simp
  | cons name path ih =>
    obtain ⟨isOpen, names, child, rfl, hname, hrest⟩ := dir_of_get?_cons h
    cases isOpen with
    | false => simp
    | true =>
      cases path with
      | nil => simp
      | cons next path =>
        rw [List.dropLast_cons_cons, openDir_cons, if_pos hname]
        split
        · exact ih hrest
        · simp

/-! ## Removal -/

/-- Where nothing is, nothing is after a removal. -/
theorem get?_remove_eq_none (h : t.get? path = none) : (t.remove removed).get? path = none := by
  induction removed generalizing t path with
  | nil => cases t <;> exact h
  | cons name rest ih =>
    cases t with
    | file data => exact h
    | link toDirectory => exact h
    | special => exact h
    | dir isOpen names child =>
      cases path with
      | nil => cases h
      | cons other path =>
        rw [get?_dir_cons] at h
        cases rest with
        | nil =>
          rw [remove_dir_last, get?_dir_cons]
          by_cases hother : other ∈ names
          · rw [if_pos hother] at h
            rw [h, ite_self]
          · rw [if_neg fun hmem => hother (List.mem_of_mem_filter hmem)]
        | cons next rest =>
          rw [remove_dir_cons, get?_dir_cons]
          by_cases hother : other ∈ names
          · rw [if_pos hother] at h ⊢
            split
            · exact ih h
            · exact h
          · rw [if_neg hother]

theorem get?_remove_self (hpath : path ≠ []) : (t.remove path).get? path = none := by
  induction path generalizing t with
  | nil => exact absurd rfl hpath
  | cons name rest ih =>
    cases t with
    | file data => rfl
    | link toDirectory => rfl
    | special => rfl
    | dir isOpen names child =>
      cases rest with
      | nil => simp
      | cons next rest =>
        rw [remove_dir_cons, get?_dir_cons]
        split
        · rw [if_pos rfl]
          exact ih (List.cons_ne_nil _ _)
        · rfl

/-- A removal leaves no new file. -/
theorem get?_of_remove (h : (t.remove removed).get? path = some e) (hdir : e.isDir = false) :
    t.get? path = some e := by
  induction removed generalizing t path with
  | nil => cases t <;> exact h
  | cons name rest ih =>
    cases t with
    | file data => exact h
    | link toDirectory => exact h
    | special => exact h
    | dir isOpen names child =>
      cases path with
      | nil =>
        cases rest with
        | nil =>
          cases h
          cases hdir
        | cons next rest =>
          cases h
          cases hdir
      | cons other path =>
        cases rest with
        | nil =>
          obtain ⟨_, _, _, heq, hother, h⟩ := dir_of_get?_cons h
          cases heq
          exact get?_dir_cons_of_mem (List.mem_of_mem_filter hother) h
        | cons next rest =>
          obtain ⟨_, _, _, heq, hother, h⟩ := dir_of_get?_cons h
          cases heq
          refine get?_dir_cons_of_mem hother ?_
          beta_reduce at h
          split at h
          · exact ih h
          · exact h

/-- The removal of a file leaves every other file. -/
theorem get?_remove_of_ne {data : φ} (hfile : t.get? removed = some (.file data))
    (h : t.get? path = some e) (hdir : e.isDir = false) (hne : path ≠ removed) :
    (t.remove removed).get? path = some e := by
  induction removed generalizing t path with
  | nil => cases t <;> exact h
  | cons name rest ih =>
    obtain ⟨isOpen, names, child, rfl, hname, hfile⟩ := dir_of_get?_cons hfile
    cases path with
    | nil =>
      cases h
      cases hdir
    | cons other path =>
      obtain ⟨_, _, _, heq, hother, h⟩ := dir_of_get?_cons h
      cases heq
      by_cases heq : other = name
      · subst heq
        cases rest with
        | nil =>
          rw [get?_nil, Option.some_inj] at hfile
          cases path with
          | nil => exact absurd rfl hne
          | cons next path =>
            rw [hfile] at h
            cases h
        | cons next rest =>
          refine get?_dir_cons_of_mem hother ?_
          rw [if_pos rfl]
          exact ih hfile h fun heq => hne (by rw [heq])
      · cases rest with
        | nil =>
          exact get?_dir_cons_of_mem (List.mem_filter.mpr ⟨hother, by simpa using heq⟩) h
        | cons next rest =>
          refine get?_dir_cons_of_mem hother ?_
          rw [if_neg heq]
          exact h

/-- The removal of a file leaves the directories as they are. -/
theorem openDir_remove {valid : ν → Bool} {data : φ} (hfile : t.get? removed = some (.file data)) :
    (t.remove removed).openDir valid path = .ok () ↔ t.openDir valid path = .ok () := by
  induction removed generalizing t path with
  | nil => cases t <;> rfl
  | cons name rest ih =>
    obtain ⟨isOpen, names, child, rfl, hname, hleaf⟩ := dir_of_get?_cons hfile
    cases isOpen with
    | false =>
      cases rest <;> simp
    | true =>
      cases path with
      | nil => cases rest <;> simp
      | cons other path =>
        by_cases heq : other = name
        · subst heq
          cases rest with
          | nil =>
            rw [get?_nil, Option.some_inj] at hleaf
            cases hvalid : valid other with
            | false => simp [hvalid]
            | true => simp [hvalid, hname, hleaf]
          | cons next rest =>
            rw [remove_dir_cons, openDir_cons, openDir_cons, if_pos hname, if_pos hname, if_pos rfl]
            split
            · exact ih hleaf
            · rfl
        · cases rest with
          | nil => simp [heq]
          | cons next rest => simp [heq]

/-! ## Hidden files -/

/-- The walk does not show an entry: one of the directories in front of it cannot be listed, or it is
    a link to a directory. -/
def Hidden (t : FileTree ν φ) (path : List ν) : Prop :=
  (∃ depth < path.length, ∃ names child, t.get? (path.take depth) = some (.dir false names child)) ∨
    t.get? path = some (.link true)

theorem hidden_cons {isOpen : Bool} {names : List ν} {child : ν → FileTree ν φ} {name : ν}
    (hname : name ∈ names) :
    (dir isOpen names child).Hidden (name :: path) ↔ isOpen = false ∨ (child name).Hidden path := by
  unfold Hidden
  constructor
  · rintro (⟨depth, hdepth, _, _, h⟩ | h)
    · cases depth with
      | zero =>
        cases h
        exact .inl rfl
      | succ depth =>
        rw [List.take_succ_cons, get?_dir_cons, if_pos hname] at h
        exact .inr (.inl ⟨depth, Nat.lt_of_succ_lt_succ hdepth, _, _, h⟩)
    · rw [get?_dir_cons, if_pos hname] at h
      exact .inr (.inr h)
  · rintro (rfl | ⟨depth, hdepth, names', child', h⟩ | h)
    · exact .inl ⟨0, Nat.succ_pos _, names, child, get?_nil⟩
    · refine .inl ⟨depth + 1, Nat.succ_lt_succ hdepth, names', child', ?_⟩
      rw [List.take_succ_cons, get?_dir_cons, if_pos hname]
      exact h
    · right
      rw [get?_dir_cons, if_pos hname]
      exact h

/-- The walk shows every entry that is no directory, except those that are hidden. -/
theorem mem_walkFiles (h : t.get? path = some e) (hdir : e.isDir = false) (hpath : path ≠ [])
    (hshown : ¬t.Hidden path) : path ∈ t.walkFiles := by
  induction path generalizing t with
  | nil => exact absurd rfl hpath
  | cons name path ih =>
    obtain ⟨isOpen, names, child, rfl, hname, hchild⟩ := dir_of_get?_cons h
    rw [hidden_cons hname, not_or] at hshown
    obtain ⟨hopen, hshown⟩ := hshown
    rw [Bool.not_eq_false] at hopen
    subst hopen
    rw [walkFiles_open, List.mem_append]
    cases path with
    | nil =>
      left
      rw [get?_nil, Option.some_inj] at hchild
      refine List.mem_map.mpr ⟨name, List.mem_filter.mpr ⟨hname, ?_⟩, rfl⟩
      rw [hchild]
      cases e with
      | dir isOpen names child => cases hdir
      | link toDirectory =>
        cases toDirectory with
        | false => rfl
        | true => exact absurd (.inr (by rw [get?_nil, hchild])) hshown
      | file data => rfl
      | special => rfl
    | cons next path =>
      right
      exact List.mem_flatMap.mpr
        ⟨name, hname, List.mem_map.mpr ⟨_, ih hchild (List.cons_ne_nil _ _) hshown, rfl⟩⟩

/-- A file that can be reached is not hidden. -/
theorem not_hidden {valid : ν → Bool} {data : φ} (hopen : t.openDir valid path.dropLast = .ok ())
    (h : t.get? path = some (.file data)) : ¬t.Hidden path := by
  induction path generalizing t with
  | nil =>
    rintro (⟨depth, hdepth, -⟩ | hlink)
    · exact Nat.not_lt_zero _ hdepth
    · rw [h] at hlink
      cases hlink
  | cons name path ih =>
    obtain ⟨isOpen, names, child, rfl, hname, hchild⟩ := dir_of_get?_cons h
    rw [hidden_cons hname]
    cases isOpen with
    | false => simp at hopen
    | true =>
      rintro (hclosed | hhidden)
      · cases hclosed
      · cases path with
        | nil =>
          rcases hhidden with ⟨depth, hdepth, -⟩ | hlink
          · exact Nat.not_lt_zero _ hdepth
          · rw [hchild] at hlink
            cases hlink
        | cons next path =>
          rw [List.dropLast_cons_cons, openDir_cons, if_pos hname] at hopen
          split at hopen
          · exact ih hopen hchild hhidden
          · cases hopen

/-- What the walk shows is there, and no directory. -/
theorem get?_of_mem_walkFiles (h : path ∈ t.walkFiles) :
    ∃ e, t.get? path = some e ∧ e.isDir = false := by
  induction t generalizing path with
  | dir isOpen names child ih =>
    cases isOpen with
    | false => cases h
    | true =>
      rw [walkFiles_open, List.mem_append] at h
      rcases h with h | h
      · obtain ⟨name, hname, rfl⟩ := List.mem_map.mp h
        obtain ⟨hname, hfile⟩ := List.mem_filter.mp hname
        refine ⟨child name, get?_dir_cons_of_mem hname get?_nil, ?_⟩
        cases hchild : child name with
        | dir isOpen names child => simp [hchild, looksLikeDir] at hfile
        | _ => rfl
      · obtain ⟨name, hname, h⟩ := List.mem_flatMap.mp h
        obtain ⟨path, hpath, rfl⟩ := List.mem_map.mp h
        obtain ⟨e, he, hdir⟩ := ih name hpath
        exact ⟨e, get?_dir_cons_of_mem hname he, hdir⟩
  | file data => cases h
  | link toDirectory => cases h
  | special => cases h

end FileTree
