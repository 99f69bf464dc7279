import Blackswan.Toggles

/-!
# Several memory-pressure injectors on one cgroup tree

A scenario may hold any number of memory-pressure injectors, and they all write to the same cgroup
file system. `armOn` and `disarmOn` are the calls of `CgroupMemoryPressureInjector` together with
what they do to that tree; `armOn_arm` and `disarmOn_disarm` tie them to the calls alone.

A process lives in one cgroup. An injector moves its target once, when it is set up, and from then
on only writes its limit file; so of several injectors with one target, the last one to be set up
has it for good.

1. `armOn_did` and `disarmOn_did`: what a call can do, as a setup and a write.
2. `Consistent` is the invariant of the system: every directory belongs to one injector.
3. `last_setup_governs` and `armed_iff_limited` are what it comes to for the targets.
-/

namespace Blackswan.Kernel

open Lib (Toggle)

/-! ## The tree -/

/-- What has been done to the cgroup file system: the text last written to each file, and the
cgroup that each process was last moved to. -/
structure CgroupTree where
  files : Path → Option String
  home : UInt32 → Option Path

namespace CgroupTree

def untouched : CgroupTree := ⟨fun _ => none, fun _ => none⟩

/-- A write to a control file. -/
def write (tree : CgroupTree) (path : Path) (text : String) : CgroupTree :=
  { tree with files := Function.update tree.files path (some text) }

/-- A write of a pid to `cgroup.procs`. -/
def move (tree : CgroupTree) (pid : UInt32) (cgroup : Path) : CgroupTree :=
  { tree with home := Function.update tree.home pid (some cgroup) }

end CgroupTree

namespace CgroupMemoryPressureInjector

variable {self : CgroupMemoryPressureInjector} {env : CgroupEnv} {tree : CgroupTree}

/-- The best effort, if it is needed, to have the memory controller delegated to a new cgroup. -/
def delegate (env : CgroupEnv) (needed : Bool) (control : Path) (tree : CgroupTree) :
    CgroupTree :=
  if needed then
    match env.write control "+memory" with
    | .error _ => tree
    | .ok () => tree.write control "+memory"
  else tree

/-- `ensure_setup`, with the tree. -/
def ensureSetupOn (self : CgroupMemoryPressureInjector) (env : CgroupEnv) (tree : CgroupTree) :
    Except HarnessError CgroupSetup × CgroupTree :=
  match self.setup with
  | some setup => (.ok setup, tree)
  | none =>
    match self.locateSubtree env with
    | .error e => (.error e, tree)
    | .ok subtree =>
      let isV1 := env.existsSetup (subtree.join "memory.limit_in_bytes")
      let limit := limitFile isV1 self.mode
      let child := (parentDir isV1 subtree).join s!"blackswan-{self.id}"
      match env.createDirAll child with
      | .error e => (.error (.armFailed self.id s!"creating cgroup {child.display}: {e}"), tree)
      | .ok () =>
        let tree := delegate env (!isV1 && !env.existsSetup (child.join limit.1))
          ((parentDir isV1 subtree).join "cgroup.subtree_control") tree
        match env.write (child.join "cgroup.procs") (toString self.pid) with
        | .error e =>
          (.error (.armFailed self.id s!"moving pid {self.pid} into cgroup: {e}"), tree)
        | .ok () => (.ok ⟨child, limit.1, limit.2⟩, tree.move self.pid child)

def armOn (self : CgroupMemoryPressureInjector) (env : CgroupEnv) (tree : CgroupTree) :
    (Except HarnessError Unit × CgroupMemoryPressureInjector) × CgroupTree :=
  match self.ensureSetupOn env tree with
  | (.error e, tree) => ((.error e, self), tree)
  | (.ok setup, tree) =>
    let limit := toString self.limitBytes
    match env.write (setup.path.join setup.limitFile) limit with
    | .error e =>
      ((.error (.armFailed self.id s!"writing {setup.limitFile}: {e}"),
        { self with setup := some setup }), tree)
    | .ok () =>
      ((.ok (), { self with setup := some setup, armed := true, limit := some limit }),
        tree.write (setup.path.join setup.limitFile) limit)

def disarmOn (self : CgroupMemoryPressureInjector) (env : CgroupEnv) (tree : CgroupTree) :
    (Except HarnessError Unit × CgroupMemoryPressureInjector) × CgroupTree :=
  match self.setup with
  | none => ((.ok (), { self with armed := false }), tree)
  | some setup =>
    match env.write (setup.path.join setup.limitFile) setup.unlimited with
    | .error e => ((.error (.disarmFailed self.id s!"writing {setup.limitFile}: {e}"), self), tree)
    | .ok () =>
      ((.ok (), { self with armed := false, limit := some setup.unlimited }),
        tree.write (setup.path.join setup.limitFile) setup.unlimited)

/-- The tree does not influence a call. -/
theorem ensureSetupOn_ensureSetup (self : CgroupMemoryPressureInjector) (env : CgroupEnv)
    (tree : CgroupTree) : (self.ensureSetupOn env tree).1 = self.ensureSetup env := by
  unfold ensureSetupOn ensureSetup
  cases self.setup with
  | some setup => rfl
  | none =>
    dsimp only
    cases self.locateSubtree env with
    | error e => rfl
    | ok subtree =>
      dsimp only
      generalize (parentDir (env.existsSetup (subtree.join "memory.limit_in_bytes")) subtree).join
        s!"blackswan-{self.id}" = child
      cases env.createDirAll child with
      | error e => rfl
      | ok u =>
        dsimp only
        cases env.write (child.join "cgroup.procs") (toString self.pid) <;> rfl

theorem armOn_arm (self : CgroupMemoryPressureInjector) (env : CgroupEnv) (tree : CgroupTree) :
    (self.armOn env tree).1 = self.arm env := by
  unfold armOn arm
  rw [← ensureSetupOn_ensureSetup self env tree]
  rcases self.ensureSetupOn env tree with ⟨e | setup, tree'⟩
  · rfl
  · dsimp only
    cases env.write (setup.path.join setup.limitFile) (toString self.limitBytes) <;> rfl

theorem disarmOn_disarm (self : CgroupMemoryPressureInjector) (env : CgroupEnv)
    (tree : CgroupTree) : (self.disarmOn env tree).1 = self.disarm env := by
  unfold disarmOn disarm
  cases self.setup with
  | none => rfl
  | some setup =>
    dsimp only
    cases env.write (setup.path.join setup.limitFile) setup.unlimited <;> rfl

/-! ## What a call can do -/

/-- The files that a limit is written to. -/
def limitFiles : List String :=
  ["memory.limit_in_bytes", "memory.soft_limit_in_bytes", "memory.max", "memory.high"]

/-- The directory of the cgroup that this injector makes. -/
def dirName (self : CgroupMemoryPressureInjector) : String := s!"blackswan-{self.id}"

theorem dirName_congr {other : CgroupMemoryPressureInjector} (h : self.id = other.id) :
    self.dirName = other.dirName := by
  unfold dirName
  rw [h]

/-- The setups that `ensure_setup` makes for this injector. -/
structure Fits (injector : CgroupMemoryPressureInjector) (setup : CgroupSetup) : Prop where
  path : ∃ parent : Path, setup.path = parent.join injector.dirName
  file : setup.limitFile ∈ limitFiles

theorem Fits.of_id {other : CgroupMemoryPressureInjector} {setup : CgroupSetup}
    (h : self.Fits setup) (hid : other.id = self.id) : other.Fits setup := by
  obtain ⟨hpath, hfile⟩ := h
  refine ⟨?_, hfile⟩
  rw [dirName_congr hid]
  exact hpath

/-- Nothing was done that concerns a target: no move, and no write but to a
`cgroup.subtree_control`. -/
structure Aside (tree tree' : CgroupTree) : Prop where
  home : tree'.home = tree.home
  files : ∀ path : Path, path.getLast? ≠ some "cgroup.subtree_control" →
    tree'.files path = tree.files path

theorem Aside.refl (tree : CgroupTree) : Aside tree tree := ⟨rfl, fun _ _ => rfl⟩

theorem join_control (path : Path) :
    path.join "cgroup.subtree_control" = path ++ ["cgroup.subtree_control"] := by
  unfold Path.join
  congr 1

theorem aside_delegate (env : CgroupEnv) (needed : Bool) (path : Path) (tree : CgroupTree) :
    Aside tree (delegate env needed (path.join "cgroup.subtree_control") tree) := by
  unfold delegate
  cases needed with
  | false => exact Aside.refl tree
  | true =>
    rw [if_pos rfl]
    cases env.write (path.join "cgroup.subtree_control") "+memory" with
    | error e => exact Aside.refl tree
    | ok u =>
      refine ⟨rfl, fun other hother => Function.update_of_ne ?_ _ _⟩
      rintro rfl
      rw [join_control, List.getLast?_concat] at hother
      exact hother rfl

theorem limitFile_mem (isV1 : Bool) (mode : PressureMode) :
    (limitFile isV1 mode).1 ∈ limitFiles := by
  cases isV1 <;> cases mode <;> decide

/-- The first half of a call: the setup, if there is none yet. -/
inductive SetsUp (self : CgroupMemoryPressureInjector) (tree : CgroupTree) :
    CgroupMemoryPressureInjector → CgroupTree → Prop where
  | nothing {mid : CgroupTree} : Aside tree mid → SetsUp self tree self mid
  | made {setup : CgroupSetup} {mid : CgroupTree} : self.setup = none → self.Fits setup →
    Aside tree mid →
    SetsUp self tree { self with setup := some setup } (mid.move self.pid setup.path)

/-- The second half: the flag, and a write to the limit file. -/
inductive Writes (self : CgroupMemoryPressureInjector) (tree : CgroupTree) :
    CgroupMemoryPressureInjector → CgroupTree → Prop where
  | nothing (armed : Bool) : Writes self tree { self with armed := armed } tree
  | wrote {setup : CgroupSetup} (armed : Bool) (text : String) : self.setup = some setup →
    Writes self tree { self with armed := armed, limit := some text }
      (tree.write (setup.path.join setup.limitFile) text)

theorem ensureSetupOn_cases (self : CgroupMemoryPressureInjector) (env : CgroupEnv)
    (tree : CgroupTree) :
    (∃ e mid, self.ensureSetupOn env tree = (.error e, mid) ∧ Aside tree mid) ∨
      ∃ setup mid, self.ensureSetupOn env tree = (.ok setup, mid) ∧
        SetsUp self tree { self with setup := some setup } mid := by
  unfold ensureSetupOn
  cases hsetup : self.setup with
  | some setup =>
    refine Or.inr ⟨setup, tree, rfl, ?_⟩
    have hself : { self with setup := some setup } = self := by rw [← hsetup]
    rw [hself]
    exact .nothing (Aside.refl tree)
  | none =>
    dsimp only
    cases self.locateSubtree env with
    | error e => exact Or.inl ⟨e, tree, rfl, Aside.refl tree⟩
    | ok subtree =>
      dsimp only
      generalize hdir : parentDir (env.existsSetup (subtree.join "memory.limit_in_bytes")) subtree
        = dir
      cases env.createDirAll (dir.join s!"blackswan-{self.id}") with
      | error e => exact Or.inl ⟨_, tree, rfl, Aside.refl tree⟩
      | ok u =>
        dsimp only
        cases env.write ((dir.join s!"blackswan-{self.id}").join "cgroup.procs")
            (toString self.pid) with
        | error e => exact Or.inl ⟨_, _, rfl, aside_delegate env _ dir tree⟩
        | ok u =>
          exact Or.inr ⟨_, _, rfl, .made hsetup ⟨⟨dir, rfl⟩, limitFile_mem _ _⟩
            (aside_delegate env _ dir tree)⟩

/-! ## Names and paths -/

theorem components_plain {text : List Char} (hslash : '/' ∉ text) (hne : text ≠ [])
    (hdot : text ≠ ['.']) : Path.components text = [String.ofList text] := by
  have hsplit : text.splitOn '/' = [text] := by
    refine List.splitOnP_eq_singleton fun c hc => ?_
    rw [beq_eq_false_iff_ne]
    rintro rfl
    exact hslash hc
  rw [Path.components, hsplit]
  simp [hne, hdot]

theorem toList_dirName (self : CgroupMemoryPressureInjector) :
    self.dirName.toList = "blackswan-".toList ++ self.id.toList := by
  unfold dirName
  rw [String.toList_append]
  rfl

/-- An id without a slash makes one directory. -/
theorem join_dirName (h : '/' ∉ self.id.toList) (parent : Path) :
    parent.join self.dirName = parent ++ [self.dirName] := by
  have htext := toList_dirName self
  have hslash : '/' ∉ self.dirName.toList := by
    rw [htext, List.mem_append, not_or]
    exact ⟨by decide, h⟩
  have hcomponents : Path.components self.dirName.toList = [self.dirName] := by
    rw [components_plain hslash (by simp [htext]) (by simp [htext]), String.ofList_toList]
  rw [Path.join, hcomponents]

theorem dirName_inj {other : CgroupMemoryPressureInjector} (h : self.dirName = other.dirName) :
    self.id = other.id := by
  have htext := congrArg String.toList h
  rw [toList_dirName, toList_dirName] at htext
  exact String.toList_inj.mp (List.append_cancel_left htext)

theorem join_limitFile {file : String} (h : file ∈ limitFiles) (path : Path) :
    path.join file = path ++ [file] := by
  have hall : ∀ file ∈ limitFiles, Path.components file.toList = [file] := by decide
  rw [Path.join, hall file h]

/-- What this injector has written to a file of its cgroup. -/
def cell (self : CgroupMemoryPressureInjector) (path : Path) : Option String :=
  match self.setup with
  | none => none
  | some setup => if path = setup.path.join setup.limitFile then self.limit else none

/-- **A call is a setup and a write**, either of which may be missing. -/
theorem armOn_did (self : CgroupMemoryPressureInjector) (env : CgroupEnv) (tree : CgroupTree) :
    ∃ mid tree', SetsUp self tree mid tree' ∧
      Writes mid tree' (self.armOn env tree).1.2 (self.armOn env tree).2 := by
  unfold armOn
  rcases ensureSetupOn_cases self env tree with ⟨e, mid, hens, haside⟩ | ⟨setup, mid, hens, hsets⟩
  · rw [hens]
    exact ⟨self, mid, .nothing haside, .nothing self.armed⟩
  · rw [hens]
    refine ⟨_, mid, hsets, ?_⟩
    dsimp only
    cases env.write (setup.path.join setup.limitFile) (toString self.limitBytes) with
    | error e => exact Writes.nothing self.armed
    | ok u => exact Writes.wrote true _ rfl

theorem disarmOn_did (self : CgroupMemoryPressureInjector) (env : CgroupEnv) (tree : CgroupTree) :
    ∃ mid tree', SetsUp self tree mid tree' ∧
      Writes mid tree' (self.disarmOn env tree).1.2 (self.disarmOn env tree).2 := by
  refine ⟨self, tree, .nothing (Aside.refl tree), ?_⟩
  unfold disarmOn
  split
  · exact Writes.nothing false
  · rename_i setup hsetup
    split
    · exact Writes.nothing self.armed
    · exact Writes.wrote false _ hsetup

end CgroupMemoryPressureInjector

open CgroupMemoryPressureInjector

/-! ## The system -/

/-- Injectors on one tree, and the order in which they were set up. -/
structure CgroupSystem (ι : Type) where
  injector : ι → CgroupMemoryPressureInjector
  tree : CgroupTree
  order : List ι

namespace CgroupSystem

variable {ι : Type} [DecidableEq ι]

def start (injector : ι → CgroupMemoryPressureInjector) : CgroupSystem ι :=
  ⟨injector, .untouched, []⟩

/-- Injector `i` is now `self`, on the given tree. -/
def put (s : CgroupSystem ι) (i : ι) (self : CgroupMemoryPressureInjector) (tree : CgroupTree) :
    CgroupSystem ι where
  injector := Function.update s.injector i self
  tree := tree
  order :=
    match (s.injector i).setup, self.setup with
    | none, some _ => s.order ++ [i]
    | _, _ => s.order

/-- A call of injector `event.1`. -/
def step (s : CgroupSystem ι) (event : ι × Toggle.Call CgroupEnv) : CgroupSystem ι :=
  let out := match event.2 with
    | .arm env => (s.injector event.1).armOn env s.tree
    | .disarm env => (s.injector event.1).disarmOn env s.tree
  s.put event.1 out.1.2 out.2

def run (s : CgroupSystem ι) (events : List (ι × Toggle.Call CgroupEnv)) : CgroupSystem ι :=
  events.foldl step s

/-- The injector set up last for a process. -/
def governor (s : CgroupSystem ι) (pid : UInt32) : Option ι :=
  (s.order.filter fun i => (s.injector i).pid = pid).getLast?

variable {s : CgroupSystem ι} {i j : ι} {self mid : CgroupMemoryPressureInjector}
  {tree tree' : CgroupTree}

@[simp] theorem put_tree : (s.put i self tree).tree = tree := rfl

@[simp] theorem put_self : (s.put i self tree).injector i = self := Function.update_self ..

@[simp] theorem put_other (h : j ≠ i) : (s.put i self tree).injector j = s.injector j :=
  Function.update_of_ne h ..

theorem put_put (tree : CgroupTree) (h : self.setup = mid.setup) :
    (s.put i mid tree).put i self tree' = s.put i self tree' := by
  simp only [put, Function.update_idem, Function.update_self, h]
  cases (s.injector i).setup <;> cases mid.setup <;> rfl

omit [DecidableEq ι] in
theorem mem_governor {pid : UInt32} (h : s.governor pid = some i) :
    i ∈ s.order ∧ (s.injector i).pid = pid := by
  have hmem := List.mem_of_getLast? h
  rwa [List.mem_filter, decide_eq_true_eq] at hmem

/-! ## The invariant -/

/-- Every directory belongs to one injector, and every process to the one set up last for it. -/
structure Consistent (s : CgroupSystem ι) : Prop where
  plain : ∀ i, '/' ∉ (s.injector i).id.toList
  ids : ∀ i j, (s.injector i).id = (s.injector j).id → i = j
  fits : ∀ i setup, (s.injector i).setup = some setup → (s.injector i).Fits setup
  blank : ∀ i, (s.injector i).setup = none → (s.injector i).limit = none
  files : ∀ i (parent : Path), ∀ file ∈ limitFiles,
    s.tree.files (parent ++ [(s.injector i).dirName] ++ [file]) =
      (s.injector i).cell (parent ++ [(s.injector i).dirName] ++ [file])
  order : ∀ i, i ∈ s.order ↔ (s.injector i).setup ≠ none
  home : ∀ pid, s.tree.home pid =
    (s.governor pid).bind fun i => (s.injector i).setup.map CgroupSetup.path

theorem limitFile_ne_control {parent : Path} {dir file : String} (h : file ∈ limitFiles) :
    (parent ++ [dir] ++ [file]).getLast? ≠ some "cgroup.subtree_control" := by
  rw [List.getLast?_concat, ne_eq, Option.some.injEq]
  rintro rfl
  exact absurd h (by decide)

/-- What holds of all injectors holds after a change of one that keeps it. -/
theorem forall_put {P : ι → CgroupMemoryPressureInjector → Prop}
    (h : ∀ j, P j (s.injector j)) (hi : P i self) : ∀ j, P j ((s.put i self tree).injector j) := by
  intro j
  by_cases hj : j = i
  · subst hj
    rw [put_self]
    exact hi
  · rw [put_other hj]
    exact h j

theorem id_put (hid : self.id = (s.injector i).id) (j : ι) :
    ((s.put i self tree).injector j).id = (s.injector j).id :=
  forall_put (P := fun j self => self.id = (s.injector j).id) (fun _ => rfl) hid j

theorem pid_put (hpid : self.pid = (s.injector i).pid) (j : ι) :
    ((s.put i self tree).injector j).pid = (s.injector j).pid :=
  forall_put (P := fun j self => self.pid = (s.injector j).pid) (fun _ => rfl) hpid j

/-- The parts of the invariant that are about names. -/
theorem Consistent.names (h : s.Consistent) (self : CgroupMemoryPressureInjector)
    (tree : CgroupTree) (hid : self.id = (s.injector i).id) :
    (∀ j, '/' ∉ ((s.put i self tree).injector j).id.toList) ∧
      ∀ j k, ((s.put i self tree).injector j).id = ((s.put i self tree).injector k).id → j = k := by
  constructor
  · intro j
    rw [id_put hid]
    exact h.plain j
  · intro j k hjk
    rw [id_put hid, id_put hid] at hjk
    exact h.ids j k hjk

omit [DecidableEq ι] in
/-- Files in the directories of two injectors are two files. -/
theorem Consistent.path_ne (h : s.Consistent) (hij : j ≠ i) (parent parent' : Path)
    (file file' : String) :
    parent ++ [(s.injector j).dirName] ++ [file] ≠
      parent' ++ [(s.injector i).dirName] ++ [file'] := by
  intro heq
  have hdirs := (List.append_inj' heq rfl).1
  have hnames := List.cons.inj (List.append_inj' hdirs rfl).2
  exact hij (h.ids j i (dirName_inj hnames.1))

omit [DecidableEq ι] in
/-- The limit file of a setup is in the directory of its injector. -/
theorem Consistent.limitPath (h : s.Consistent) {setup : CgroupSetup}
    (hfits : (s.injector i).Fits setup) :
    ∃ parent : Path, setup.path = parent ++ [(s.injector i).dirName] ∧
      setup.path.join setup.limitFile = setup.path ++ [setup.limitFile] := by
  obtain ⟨parent, hpath⟩ := hfits.path
  rw [join_dirName (h.plain i)] at hpath
  exact ⟨parent, hpath, join_limitFile hfits.file _⟩

theorem order_put_new {setup : CgroupSetup} (hnone : (s.injector i).setup = none)
    (hsome : self.setup = some setup) : (s.put i self tree).order = s.order ++ [i] := by
  simp only [put, hnone, hsome]

theorem order_put_old (hsame : self.setup = (s.injector i).setup) :
    (s.put i self tree).order = s.order := by
  simp only [put, hsame]
  cases (s.injector i).setup <;> rfl

theorem filter_pid_put (hpid : self.pid = (s.injector i).pid) (pid : UInt32) (order : List ι) :
    (order.filter fun j => ((s.put i self tree).injector j).pid = pid) =
      order.filter fun j => (s.injector j).pid = pid := by
  apply List.filter_congr
  intro j _
  rw [pid_put hpid]

/-- A setup takes the target over. -/
theorem governor_put_new {setup : CgroupSetup} (hnone : (s.injector i).setup = none)
    (hsome : self.setup = some setup) (hpid : self.pid = (s.injector i).pid) (pid : UInt32) :
    (s.put i self tree).governor pid =
      if (s.injector i).pid = pid then some i else s.governor pid := by
  unfold governor
  rw [filter_pid_put hpid, order_put_new hnone hsome, List.filter_append]
  by_cases hi : (s.injector i).pid = pid
  · simp [hi]
  · simp [hi]

theorem governor_put_old (hsame : self.setup = (s.injector i).setup)
    (hpid : self.pid = (s.injector i).pid) (pid : UInt32) :
    (s.put i self tree).governor pid = s.governor pid := by
  unfold governor
  rw [filter_pid_put hpid, order_put_old hsame]

/-- The parts of the invariant that are about setups, after a change that makes none. -/
theorem Consistent.setups (h : s.Consistent) (tree : CgroupTree) (hid : self.id = (s.injector i).id)
    (hpid : self.pid = (s.injector i).pid) (hsame : self.setup = (s.injector i).setup)
    (hhome : tree.home = s.tree.home) :
    (∀ j setup, ((s.put i self tree).injector j).setup = some setup →
      ((s.put i self tree).injector j).Fits setup) ∧
    (∀ j, j ∈ (s.put i self tree).order ↔ ((s.put i self tree).injector j).setup ≠ none) ∧
    ∀ pid, (s.put i self tree).tree.home pid = ((s.put i self tree).governor pid).bind fun j =>
      ((s.put i self tree).injector j).setup.map CgroupSetup.path := by
  have hall : ∀ j, ((s.put i self tree).injector j).setup = (s.injector j).setup :=
    forall_put (P := fun j self => self.setup = (s.injector j).setup) (fun _ => rfl) hsame
  refine ⟨?_, ?_, ?_⟩
  · refine forall_put (P := fun _ self => ∀ setup, self.setup = some setup → self.Fits setup)
      h.fits fun setup hsetup => ?_
    rw [hsame] at hsetup
    exact (h.fits i setup hsetup).of_id hid
  · intro j
    rw [order_put_old hsame, h.order j, hall]
  · intro pid
    rw [governor_put_old hsame hpid, put_tree, hhome, h.home pid]
    simp only [hall]

/-- Nothing happens to the targets. -/
theorem consistent_keep (h : s.Consistent) (hid : self.id = (s.injector i).id)
    (hpid : self.pid = (s.injector i).pid) (hsame : self.setup = (s.injector i).setup)
    (hlimit : self.limit = (s.injector i).limit) (haside : Aside s.tree tree) :
    (s.put i self tree).Consistent := by
  obtain ⟨hplain, hids⟩ := h.names self tree hid
  obtain ⟨hfits, horder, hhome⟩ := h.setups tree hid hpid hsame haside.home
  refine ⟨hplain, hids, hfits, ?_, ?_, horder, hhome⟩
  · refine forall_put (P := fun _ self => self.setup = none → self.limit = none) h.blank ?_
    rw [hsame, hlimit]
    exact h.blank i
  · intro j parent file hfile
    have hold := (haside.files _ (limitFile_ne_control hfile)).trans (h.files j parent file hfile)
    by_cases hj : j = i
    · subst hj
      rw [put_self, dirName_congr hid, cell, hsame, hlimit]
      exact hold
    · rw [put_other hj]
      exact hold

/-- A setup. -/
theorem consistent_setUp {setup : CgroupSetup} (h : s.Consistent)
    (hid : self.id = (s.injector i).id) (hpid : self.pid = (s.injector i).pid)
    (hnone : (s.injector i).setup = none) (hsome : self.setup = some setup)
    (hlimit : self.limit = (s.injector i).limit) (hfits : (s.injector i).Fits setup)
    (haside : Aside s.tree tree) :
    (s.put i self (tree.move (s.injector i).pid setup.path)).Consistent := by
  obtain ⟨hplain, hids⟩ := h.names self (tree.move (s.injector i).pid setup.path) hid
  refine ⟨hplain, hids, ?_, ?_, ?_, ?_, ?_⟩
  · refine forall_put (P := fun _ self => ∀ setup, self.setup = some setup → self.Fits setup)
      h.fits fun setup' hsetup' => ?_
    rw [hsome] at hsetup'
    cases hsetup'
    exact hfits.of_id hid
  · refine forall_put (P := fun _ self => self.setup = none → self.limit = none) h.blank ?_
    intro hnone'
    rw [hsome] at hnone'
    cases hnone'
  · -- nothing has been written to the new cgroup
    intro j parent file hfile
    have hold := (haside.files _ (limitFile_ne_control hfile)).trans (h.files j parent file hfile)
    by_cases hj : j = i
    · subst hj
      have hblank := h.blank j hnone
      rw [put_self, dirName_congr hid]
      refine hold.trans ?_
      simp [cell, hnone, hsome, hlimit, hblank]
    · rw [put_other hj]
      exact hold
  · intro j
    rw [order_put_new hnone hsome, List.mem_append, List.mem_singleton, h.order j]
    by_cases hj : j = i
    · subst hj
      simp [hsome]
    · rw [put_other hj]
      simp [hj]
  · intro pid
    rw [governor_put_new hnone hsome hpid]
    by_cases hi : (s.injector i).pid = pid
    · subst hi
      rw [if_pos rfl, Option.bind_some, put_self, hsome]
      exact Function.update_self ..
    · have hold : (tree.move (s.injector i).pid setup.path).home pid = s.tree.home pid :=
        (Function.update_of_ne (Ne.symm hi) ..).trans (congrFun haside.home pid)
      rw [if_neg hi, put_tree, hold, h.home pid]
      cases hgov : s.governor pid with
      | none => rfl
      | some j =>
        have hj : j ≠ i := by
          rintro rfl
          exact hi (mem_governor hgov).2
        rw [Option.bind_some, Option.bind_some, put_other hj]

/-- A write to the limit file. -/
theorem consistent_write {setup : CgroupSetup} {text : String} (h : s.Consistent)
    (hid : self.id = (s.injector i).id) (hpid : self.pid = (s.injector i).pid)
    (hsame : self.setup = (s.injector i).setup) (hsetup : (s.injector i).setup = some setup)
    (hlimit : self.limit = some text) :
    (s.put i self (s.tree.write (setup.path.join setup.limitFile) text)).Consistent := by
  obtain ⟨hplain, hids⟩ :=
    h.names self (s.tree.write (setup.path.join setup.limitFile) text) hid
  obtain ⟨hfits, horder, hhome⟩ :=
    h.setups (s.tree.write (setup.path.join setup.limitFile) text) hid hpid hsame rfl
  obtain ⟨parent, hparent, hpath⟩ := h.limitPath (h.fits i setup hsetup)
  refine ⟨hplain, hids, hfits, ?_, ?_, horder, hhome⟩
  · refine forall_put (P := fun _ self => self.setup = none → self.limit = none) h.blank ?_
    intro hnone
    rw [hsame, hsetup] at hnone
    cases hnone
  · intro j parent' file hfile
    have hold := h.files j parent' file hfile
    rw [put_tree]
    by_cases hj : j = i
    · subst hj
      rw [put_self, dirName_congr hid, cell, hsame, hsetup, hlimit]
      rw [cell, hsetup] at hold
      dsimp only at hold ⊢
      by_cases hfile : parent' ++ [(s.injector j).dirName] ++ [file] =
          setup.path.join setup.limitFile
      · rw [if_pos hfile]
        exact (congrArg _ hfile).trans (Function.update_self ..)
      · rw [if_neg hfile] at hold ⊢
        exact (Function.update_of_ne hfile ..).trans hold
    · have hne : parent' ++ [(s.injector j).dirName] ++ [file] ≠
          setup.path.join setup.limitFile := by
        rw [hpath, hparent]
        exact h.path_ne hj parent' parent file setup.limitFile
      rw [put_other hj]
      exact (Function.update_of_ne hne ..).trans hold

omit [DecidableEq ι] in
theorem exists_governor {pid : UInt32} (h : i ∈ s.order) (hpid : (s.injector i).pid = pid) :
    ∃ j, s.governor pid = some j := by
  have hmem : i ∈ s.order.filter fun j => (s.injector j).pid = pid :=
    List.mem_filter.mpr ⟨h, decide_eq_true hpid⟩
  unfold governor
  rw [List.getLast?_eq_some_getLast (List.ne_nil_of_mem hmem)]
  exact ⟨_, rfl⟩

omit [DecidableEq ι] in
/-- What a process is under, once an injector has been set up for it. -/
theorem Consistent.governed (h : s.Consistent) {pid : UInt32} (hgov : s.governor pid = some i) :
    ∃ setup : CgroupSetup, s.tree.home pid = some setup.path ∧ setup.limitFile ∈ limitFiles ∧
      ∀ file ∈ limitFiles, s.tree.files (setup.path.join file) =
        if file = setup.limitFile then (s.injector i).limit else none := by
  cases hsetup : (s.injector i).setup with
  | none => exact absurd hsetup ((h.order i).mp (mem_governor hgov).1)
  | some setup =>
    have hfits := h.fits i setup hsetup
    obtain ⟨parent, hparent, hpath⟩ := h.limitPath hfits
    refine ⟨setup, ?_, hfits.file, fun file hfile => ?_⟩
    · rw [h.home, hgov, Option.bind_some, hsetup]
      rfl
    · have hcell := h.files i parent file hfile
      rw [cell, hsetup, ← hparent, ← join_limitFile hfile] at hcell
      rw [hcell]
      dsimp only
      rw [join_limitFile hfile, hpath]
      by_cases heq : file = setup.limitFile
      · rw [if_pos heq, if_pos (by rw [heq])]
      · have hne : setup.path ++ [file] ≠ setup.path ++ [setup.limitFile] :=
          fun hsame => heq (List.cons.inj (List.append_cancel_left hsame)).1
        rw [if_neg heq, if_neg hne]

/-! ## Runs -/

theorem consistent_sets (h : s.Consistent) (hsets : SetsUp (s.injector i) s.tree self tree) :
    (s.put i self tree).Consistent := by
  cases hsets with
  | nothing haside => exact consistent_keep h rfl rfl rfl rfl haside
  | made hnone hfits haside => exact consistent_setUp h rfl rfl hnone rfl rfl hfits haside

theorem consistent_writes (h : s.Consistent) (hwrites : Writes (s.injector i) s.tree self tree) :
    (s.put i self tree).Consistent := by
  cases hwrites with
  | nothing armed => exact consistent_keep h rfl rfl rfl rfl (Aside.refl s.tree)
  | wrote armed text hsetup => exact consistent_write h rfl rfl rfl hsetup rfl

/-- **One call keeps the system consistent**, however it ends. -/
theorem consistent_step (h : s.Consistent) (event : ι × Toggle.Call CgroupEnv) :
    (s.step event).Consistent := by
  have hcall : ∀ {self tree}, (∃ mid tree', SetsUp (s.injector event.1) s.tree mid tree' ∧
      Writes mid tree' self tree) → (s.put event.1 self tree).Consistent := by
    rintro self tree ⟨mid, tree', hsets, hwrites⟩
    have hsetup : self.setup = mid.setup := by cases hwrites <;> rfl
    have hmid := consistent_sets h hsets
    rw [← put_put tree' hsetup]
    refine consistent_writes hmid ?_
    rw [put_self, put_tree]
    exact hwrites
  obtain ⟨i, call⟩ := event
  cases call with
  | arm env => exact hcall (armOn_did (s.injector i) env s.tree)
  | disarm env => exact hcall (disarmOn_did (s.injector i) env s.tree)

theorem consistent_run (h : s.Consistent) (events : List (ι × Toggle.Call CgroupEnv)) :
    (s.run events).Consistent := by
  induction events generalizing s with
  | nil => exact h
  | cons event events ih => exact ih (consistent_step h event)

omit [DecidableEq ι] in
theorem consistent_start {injector : ι → CgroupMemoryPressureInjector}
    (hplain : ∀ i, '/' ∉ (injector i).id.toList)
    (hids : ∀ i j, (injector i).id = (injector j).id → i = j)
    (hfresh : ∀ i, (injector i).setup = none ∧ (injector i).limit = none) :
    (start injector).Consistent where
  plain := hplain
  ids := hids
  fits := by
    intro i setup hsetup
    rw [show ((start injector).injector i).setup = none from (hfresh i).1] at hsetup
    cases hsetup
  blank := fun i _ => (hfresh i).2
  files := by
    intro i parent file _
    rw [cell, show ((start injector).injector i).setup = none from (hfresh i).1]
    rfl
  order := by
    intro i
    exact iff_of_false List.not_mem_nil (not_not.mpr (hfresh i).1)
  home := fun _ => rfl

/-! ## Each injector on its own -/

/-- The calls of injector `i`. -/
def callsOf (i : ι) (events : List (ι × Toggle.Call CgroupEnv)) : List (Toggle.Call CgroupEnv) :=
  (events.filter fun event => event.1 = i).map Prod.snd

theorem injector_step (s : CgroupSystem ι) (event : ι × Toggle.Call CgroupEnv) (i : ι) :
    (s.step event).injector i =
      if event.1 = i then (toggle.call (s.injector i) event.2).2 else s.injector i := by
  obtain ⟨j, call⟩ := event
  by_cases hj : j = i
  · subst hj
    rw [if_pos rfl]
    cases call with
    | arm env => exact put_self.trans (congrArg Prod.snd (armOn_arm (s.injector j) env s.tree))
    | disarm env =>
      exact put_self.trans (congrArg Prod.snd (disarmOn_disarm (s.injector j) env s.tree))
  · rw [if_neg hj]
    exact put_other (Ne.symm hj)

/-- An injector of the system is what its own calls make of it. -/
theorem injector_run (s : CgroupSystem ι) (events : List (ι × Toggle.Call CgroupEnv)) (i : ι) :
    (s.run events).injector i = toggle.after (callsOf i events) (s.injector i) := by
  induction events generalizing s with
  | nil => rfl
  | cons event events ih =>
    show ((s.step event).run events).injector i = _
    rw [ih, injector_step]
    by_cases hi : event.1 = i
    · simp [hi, callsOf, Toggle.after]
    · simp [hi, callsOf]

/-- A call keeps the target and the limit. -/
theorem target_call (self : CgroupMemoryPressureInjector) (c : Toggle.Call CgroupEnv) :
    (toggle.call self c).2.pid = self.pid ∧
      (toggle.call self c).2.limitBytes = self.limitBytes := by
  have hdid : ∃ tree mid tree' tree'', SetsUp self tree mid tree' ∧
      Writes mid tree' (toggle.call self c).2 tree'' := by
    cases c with
    | arm env =>
      obtain ⟨mid, tree', hsets, hwrites⟩ := armOn_did self env .untouched
      rw [armOn_arm] at hwrites
      exact ⟨_, mid, tree', _, hsets, hwrites⟩
    | disarm env =>
      obtain ⟨mid, tree', hsets, hwrites⟩ := disarmOn_did self env .untouched
      rw [disarmOn_disarm] at hwrites
      exact ⟨_, mid, tree', _, hsets, hwrites⟩
  obtain ⟨tree, mid, tree', tree'', hsets, hwrites⟩ := hdid
  generalize (toggle.call self c).2 = last at hwrites
  cases hwrites <;> cases hsets <;> exact ⟨rfl, rfl⟩

theorem target_run (s : CgroupSystem ι) (events : List (ι × Toggle.Call CgroupEnv)) (i : ι) :
    ((s.run events).injector i).pid = (s.injector i).pid ∧
      ((s.run events).injector i).limitBytes = (s.injector i).limitBytes := by
  rw [injector_run]
  generalize callsOf i events = calls
  generalize s.injector i = self
  induction calls generalizing self with
  | nil => exact ⟨rfl, rfl⟩
  | cons c calls ih =>
    obtain ⟨hpid, hlimit⟩ := ih (toggle.call self c).2
    obtain ⟨hpid', hlimit'⟩ := target_call self c
    exact ⟨hpid.trans hpid', hlimit.trans hlimit'⟩

end CgroupSystem

/-! ## The targets -/

open CgroupSystem

section
variable {ι : Type} [DecidableEq ι] {injector : ι → CgroupMemoryPressureInjector}

/-- Fresh injectors with ids that make directories of their own, which those with a slash may not,
and with limits whose text is not the one that lifts them. -/
structure Deployed (injector : ι → CgroupMemoryPressureInjector) : Prop where
  plain : ∀ i, '/' ∉ (injector i).id.toList
  ids : ∀ i j, (injector i).id = (injector j).id → i = j
  fresh : ∀ i, injector i = .new (injector i).id (injector i).pid (injector i).limitBytes
    (injector i).mode
  limits : ∀ i, Limits (injector i).limitBytes (injector i).mode

theorem Deployed.consistent (h : Deployed injector)
    (events : List (ι × Toggle.Call CgroupEnv)) : ((start injector).run events).Consistent := by
  refine consistent_run (consistent_start h.plain h.ids fun i => ?_) events
  rw [h.fresh i]
  exact ⟨rfl, rfl⟩

/-- The flag of an injector says what it last wrote. -/
theorem Deployed.agree (h : Deployed injector) (events : List (ι × Toggle.Call CgroupEnv))
    (i : ι) :
    (((start injector).run events).injector i).armed = true ↔
      (((start injector).run events).injector i).limit =
        some (toString (injector i).limitBytes) := by
  have hready : Ready (injector i) := by
    refine ⟨h.limits i, ?_, ?_⟩
    · rw [h.fresh i]
      exact fun _ => rfl
    · rw [h.fresh i]
      exact fun setup hsetup => by cases hsetup
  have hagree : toggle.Agree (injector i) := by
    rw [h.fresh i]
    exact iff_of_false (fun hf => by cases hf) fun hf => by cases hf
  have hafter := (toggle_lawful.agree_after hready hagree (callsOf i events)).2
  have hrun : ((start injector).run events).injector i =
      toggle.after (callsOf i events) (injector i) := injector_run (start injector) events i
  have hlimit : (((start injector).run events).injector i).limitBytes = (injector i).limitBytes :=
    (target_run (start injector) events i).2
  rw [← hrun] at hafter
  rw [← hlimit]
  exact hafter

/-- A host where everything works. -/
def roomyHost : CgroupEnv :=
  ⟨fun _ => true, .ok "", fun _ => true, fun _ => .ok (), fun _ _ => .ok ()⟩

/-- Two injectors, the second with a target of its own or with that of the first. -/
def twoInjectors (second : UInt32) (i : Bool) : CgroupMemoryPressureInjector :=
  if i then .new "b" second 1000000 .hard else .new "a" 4711 2000000 .hard

theorem deployed_twoInjectors (second : UInt32) : Deployed (twoInjectors second) where
  plain := by
    intro i
    cases i with
    | false => exact show '/' ∉ "a".toList by decide
    | true => exact show '/' ∉ "b".toList by decide
  ids := by
    have hab : "a" ≠ "b" := by decide
    intro i j hid
    cases i <;> cases j
    · rfl
    · exact absurd hid hab
    · exact absurd hid hab.symm
    · rfl
  fresh := by
    intro i
    cases i <;> rfl
  limits := by
    intro i isV1
    cases i with
    | false =>
      show (limitFile isV1 .hard).2 ≠ toString (2000000 : UInt64)
      cases isV1 <;> decide
    | true =>
      show (limitFile isV1 .hard).2 ≠ toString (1000000 : UInt64)
      cases isV1 <;> decide

/-- Both are armed in turn, and the second is disarmed again. -/
def armArmDisarm : List (Bool × Toggle.Call CgroupEnv) :=
  [(false, .arm roomyHost), (true, .arm roomyHost), (true, .disarm roomyHost)]

/-- **Injectors with targets of their own do not interfere.** In every run of injectors deployed as
above and whatever fails, an injector is armed exactly if its target lives in a cgroup where its
limit is what was last written to a limit file. -/
theorem armed_iff_limited (h : Deployed injector)
    (hpids : ∀ i j, (injector i).pid = (injector j).pid → i = j)
    (events : List (ι × Toggle.Call CgroupEnv)) (i : ι) :
    (((start injector).run events).injector i).armed = true ↔
      ∃ cgroup, ((start injector).run events).tree.home (injector i).pid = some cgroup ∧
        ∃ file ∈ limitFiles, ((start injector).run events).tree.files (cgroup.join file) =
          some (toString (injector i).limitBytes) := by
  have hcons := h.consistent events
  have hgoverns : ∀ j,
      ((start injector).run events).governor (injector i).pid = some j → j = i := by
    intro j hj
    refine hpids j i ?_
    rw [← (mem_governor hj).2]
    exact (target_run (start injector) events j).1.symm
  have hagree := h.agree events i
  have hpid : (((start injector).run events).injector i).pid = (injector i).pid :=
    (target_run (start injector) events i).1
  constructor
  · intro harmed
    have hlimit := hagree.mp harmed
    -- it has been set up, so someone governs its target
    have hsetup : (((start injector).run events).injector i).setup ≠ none := by
      intro hnone
      rw [hcons.blank i hnone] at hlimit
      cases hlimit
    obtain ⟨j, hgov⟩ := exists_governor ((hcons.order i).mpr hsetup) hpid
    obtain rfl := hgoverns j hgov
    obtain ⟨setup, hhome, hfile, hfiles⟩ := hcons.governed hgov
    refine ⟨setup.path, hhome, setup.limitFile, hfile, ?_⟩
    rw [hfiles _ hfile, if_pos rfl]
    exact hlimit
  · rintro ⟨cgroup, hhome, file, hfile, hlimit⟩
    have hgov' := hhome
    rw [hcons.home] at hgov'
    obtain ⟨j, hgov, -⟩ := Option.bind_eq_some_iff.mp hgov'
    obtain rfl := hgoverns j hgov
    obtain ⟨setup, hhome', -, hfiles⟩ := hcons.governed hgov
    obtain rfl : setup.path = cgroup := Option.some.inj (hhome'.symm.trans hhome)
    rw [hfiles file hfile] at hlimit
    split_ifs at hlimit
    exact hagree.mpr hlimit

theorem armed_iff_limited_twoInjectors :
    ∃ cgroup, ((start (twoInjectors 4712)).run armArmDisarm).tree.home 4711 = some cgroup ∧
      ∃ file ∈ limitFiles, ((start (twoInjectors 4712)).run armArmDisarm).tree.files
        (cgroup.join file) = some (toString (2000000 : UInt64)) := by
  have hpids : ∀ i j, (twoInjectors 4712 i).pid = (twoInjectors 4712 j).pid → i = j := by decide
  exact (armed_iff_limited (deployed_twoInjectors 4712) hpids armArmDisarm false).mp rfl

end

end Blackswan.Kernel
