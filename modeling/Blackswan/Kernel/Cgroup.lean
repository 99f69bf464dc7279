import Mathlib.Data.List.Basic
import Blackswan.Core

/-!
# Memory pressure through cgroups

`CgroupMemoryPressureInjector` finds the memory controller on a v1 or v2 hierarchy, makes a child
cgroup, moves the target into it, and then toggles the limit file of that cgroup.

What the file system answers comes in as a `CgroupEnv`, one per call. Paths are absolute and kept
by their components, as `PathBuf` compares them; `display` writes them in normal form.
-/

namespace Blackswan.Kernel

/-! ## Paths -/

abbrev Path := List String

namespace Path

/-- The components of a relative path: empty ones and `.` do not count. -/
def components (text : List Char) : Path :=
  ((text.splitOn '/').filter fun part => part ≠ [] ∧ part ≠ ['.']).map String.ofList

/-- `Path::join` with a relative path. -/
def join (path : Path) (text : String) : Path := path ++ components text.toList

def display (path : Path) : String := "/" ++ "/".intercalate path

/-- `Path::parent`; the root has none. -/
def parent (path : Path) : Option Path := if path = [] then none else some path.dropLast

end Path

/-- `str::lines`: a line feed ends a line, with a carriage return right before it if there is one.
What follows the last line feed is a line if it is not empty, and keeps its carriage return. -/
def lines (text : String) : List (List Char) :=
  let parts := text.toList.splitOn '\n'
  let ended := parts.dropLast.map fun line =>
    if line.getLast? = some '\r' then line.dropLast else line
  match parts.getLast? with
  | some (c :: line) => ended ++ [c :: line]
  | _ => ended

example : lines "a\r\nb\r" = [['a'], ['b', '\r']] := by decide

/-- `l.strip_prefix("0::")`. -/
def v2Entry : List Char → Option (List Char)
  | '0' :: ':' :: ':' :: path => some path
  | _ => none

/-! ## The injector -/

/-- What one call meets outside the process. The subtree is searched first and looked at again
afterwards, so there are two sets of answers about what exists. -/
structure CgroupEnv where
  existsLocate : Path → Bool
  readProcSelfCgroup : Except String String
  existsSetup : Path → Bool
  createDirAll : Path → Except String Unit
  write : Path → String → Except String Unit

inductive PressureMode where
  | hard
  | soft
  deriving DecidableEq, Repr

/-- The three parts of `setup`: the cgroup, its limit file, and the text that lifts the limit. -/
structure CgroupSetup where
  path : Path
  limitFile : String
  unlimited : String
  deriving DecidableEq, Repr

/-- The source's fields and, in `limit`, the text last written to the limit file. -/
structure CgroupMemoryPressureInjector where
  id : String
  pid : UInt32
  limitBytes : UInt64
  mode : PressureMode
  setup : Option CgroupSetup
  armed : Bool
  limit : Option String

namespace CgroupMemoryPressureInjector

def new (id : String) (pid : UInt32) (limitBytes : UInt64) (mode : PressureMode) :
    CgroupMemoryPressureInjector := ⟨id, pid, limitBytes, mode, none, false, none⟩

def v1Root : Path := ["sys", "fs", "cgroup", "memory"]
def v2Root : Path := ["sys", "fs", "cgroup"]
def v2UnifiedRoot : Path := ["sys", "fs", "cgroup", "unified"]

def locateSubtree (self : CgroupMemoryPressureInjector) (env : CgroupEnv) :
    Except HarnessError Path :=
  if env.existsLocate (v1Root.join "memory.limit_in_bytes") then .ok v1Root
  else
    match env.readProcSelfCgroup with
    | .error e => .error (.io e)
    | .ok ourCgroup =>
      match (lines ourCgroup).findSome? v2Entry with
      | none => .error (.armFailed self.id "no v2 cgroup entry in /proc/self/cgroup")
      | some v2Path =>
        let v2Path := Path.components (v2Path.dropWhile (· = '/'))
        -- unified mode, then the hybrid layout
        if env.existsLocate (v2Root.join "cgroup.controllers") ∧
            env.existsLocate ((v2Root ++ v2Path).join "memory.max") then .ok (v2Root ++ v2Path)
        else if env.existsLocate ((v2UnifiedRoot ++ v2Path).join "memory.max") then
          .ok (v2UnifiedRoot ++ v2Path)
        else .error (.armFailed self.id
          "no usable memory controller on either v1 or v2 cgroup hierarchy")

/-- The limit file and the text that lifts the limit. -/
def limitFile (isV1 : Bool) (mode : PressureMode) : String × String :=
  match isV1, mode with
  | true, .hard => ("memory.limit_in_bytes", "9223372036854775807")
  | true, .soft => ("memory.soft_limit_in_bytes", "9223372036854775807")
  | false, .hard => ("memory.max", "max")
  | false, .soft => ("memory.high", "max")

/-- On v2 the new cgroup is a sibling of our own, unless that is the root of the hierarchy. -/
def parentDir (isV1 : Bool) (subtree : Path) : Path :=
  if isV1 ∨ subtree ∈ [v2Root, v2UnifiedRoot] then subtree
  else subtree.parent.getD subtree

/-- `ensure_setup`, which returns what `self.setup` then holds. The write to
`cgroup.subtree_control` is a best effort whose result is ignored. -/
def ensureSetup (self : CgroupMemoryPressureInjector) (env : CgroupEnv) :
    Except HarnessError CgroupSetup :=
  match self.setup with
  | some setup => .ok setup
  | none =>
    match self.locateSubtree env with
    | .error e => .error e
    | .ok subtree =>
      let isV1 := env.existsSetup (subtree.join "memory.limit_in_bytes")
      let limit := limitFile isV1 self.mode
      let child := (parentDir isV1 subtree).join s!"blackswan-{self.id}"
      match env.createDirAll child with
      | .error e => .error (.armFailed self.id s!"creating cgroup {child.display}: {e}")
      | .ok () =>
        match env.write (child.join "cgroup.procs") (toString self.pid) with
        | .error e => .error (.armFailed self.id s!"moving pid {self.pid} into cgroup: {e}")
        | .ok () => .ok ⟨child, limit.1, limit.2⟩

def arm (self : CgroupMemoryPressureInjector) (env : CgroupEnv) :
    Except HarnessError Unit × CgroupMemoryPressureInjector :=
  match self.ensureSetup env with
  | .error e => (.error e, self)
  | .ok setup =>
    let limit := toString self.limitBytes
    match env.write (setup.path.join setup.limitFile) limit with
    | .error e =>
      (.error (.armFailed self.id s!"writing {setup.limitFile}: {e}"),
        { self with setup := some setup })
    | .ok () => (.ok (), { self with setup := some setup, armed := true, limit := some limit })

def disarm (self : CgroupMemoryPressureInjector) (env : CgroupEnv) :
    Except HarnessError Unit × CgroupMemoryPressureInjector :=
  match self.setup with
  | none => (.ok (), { self with armed := false })
  | some setup =>
    match env.write (setup.path.join setup.limitFile) setup.unlimited with
    | .error e => (.error (.disarmFailed self.id s!"writing {setup.limitFile}: {e}"), self)
    | .ok () => (.ok (), { self with armed := false, limit := some setup.unlimited })

/-- `arm` sets `is_armed` if it succeeds and leaves it otherwise. -/
theorem armed_arm (self : CgroupMemoryPressureInjector) (env : CgroupEnv) :
    ((self.arm env).1 = .ok () ∧ (self.arm env).2.armed = true) ∨
      ∃ e, (self.arm env).1 = .error e ∧ (self.arm env).2.armed = self.armed := by
  unfold arm
  rcases self.ensureSetup env with e | setup
  · exact Or.inr ⟨e, rfl, rfl⟩
  · dsimp only
    rcases env.write (setup.path.join setup.limitFile) (toString self.limitBytes) with e | ⟨⟩
    · exact Or.inr ⟨_, rfl, rfl⟩
    · exact Or.inl ⟨rfl, rfl⟩

theorem armed_disarm (self : CgroupMemoryPressureInjector) (env : CgroupEnv) :
    ((self.disarm env).1 = .ok () ∧ (self.disarm env).2.armed = false) ∨
      ∃ e, (self.disarm env).1 = .error e ∧ (self.disarm env).2.armed = self.armed := by
  unfold disarm
  rcases self.setup with _ | setup
  · exact Or.inl ⟨rfl, rfl⟩
  · dsimp only
    rcases env.write (setup.path.join setup.limitFile) setup.unlimited with e | ⟨⟩
    · exact Or.inr ⟨_, rfl, rfl⟩
    · exact Or.inl ⟨rfl, rfl⟩

end CgroupMemoryPressureInjector

end Blackswan.Kernel
