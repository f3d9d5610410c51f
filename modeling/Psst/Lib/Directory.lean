import Mathlib.Data.List.Basic
import Mathlib.Logic.Function.Basic
import Psst.Lib.Program

/-!
# Files in a directory

The system calls of a program that keeps records as files of one directory, and what is left when
the program stops between two of them or the power fails. A file is an inode; the names of the
directory refer to inodes. Writes reach the disk with a sync of the file, changes of names with a
sync of the directory. What is proved is the rule of atomic replacement: a file that is written and
synced under another name and then renamed over the target leaves the target, at every moment, as
it was or complete.
-/

namespace Directory

abbrev Name := String

/-- An inode. -/
structure File where
  content : List UInt8
  mode : Nat
  synced : Bool
  deriving DecidableEq

/-- What a name refers to. -/
inductive Entry where
  | file (inode : Nat)
  | link
  | directory
  | special
  deriving DecidableEq

abbrev Listing := Name → Option Entry

/-- The inodes, the names as they are now, and the names as they were at every change since the
directory was last synced. -/
structure Volume where
  files : List File
  live : Listing
  older : List Listing
  named : ∀ l ∈ live :: older, ∀ name i, l name = some (.file i) → i < files.length

/-- What a name shows. -/
inductive Node where
  | file (f : File)
  | link
  | directory
  | special
  deriving DecidableEq

namespace Volume

def node (d : Volume) (name : Name) : Option Node :=
  match d.live name with
  | none => none
  | some (.file i) => d.files[i]?.map .file
  | some .link => some .link
  | some .directory => some .directory
  | some .special => some .special

/-! ## Changes -/

/-- A new empty file. -/
def create (d : Volume) (name : Name) (mode : Nat) : Volume where
  files := d.files ++ [⟨[], mode, false⟩]
  live := Function.update d.live name (some (.file d.files.length))
  older := d.live :: d.older
  named := by
    intro l hl other i hentry
    rw [List.length_append, List.length_singleton]
    cases List.mem_cons.mp hl with
    | inl heq =>
        subst heq
        by_cases hname : other = name
        · rw [hname, Function.update_self] at hentry
          cases hentry
          omega
        · rw [Function.update_of_ne hname] at hentry
          have := d.named _ (List.mem_cons_self ..) other i hentry
          omega
    | inr hold =>
        have := d.named l hold other i hentry
        omega

/-- Change the file of one inode. -/
def modify (d : Volume) (i : Nat) (change : File → File) : Volume where
  files := d.files.modify i change
  live := d.live
  older := d.older
  named := by
    intro l hl name j hentry
    rw [List.length_modify]
    exact d.named l hl name j hentry

def write (d : Volume) (i : Nat) (bytes : List UInt8) : Volume :=
  d.modify i fun f => { f with content := f.content ++ bytes, synced := false }

def syncFile (d : Volume) (i : Nat) : Volume := d.modify i fun f => { f with synced := true }

/-- Give a name to what another name refers to, in one step. -/
def rename (d : Volume) (source target : Name) : Volume where
  files := d.files
  live := Function.update (Function.update d.live source none) target (d.live source)
  older := d.live :: d.older
  named := by
    intro l hl name i hentry
    cases List.mem_cons.mp hl with
    | inl heq =>
        subst heq
        by_cases htarget : name = target
        · rw [htarget, Function.update_self] at hentry
          exact d.named _ (List.mem_cons_self ..) source i hentry
        · rw [Function.update_of_ne htarget] at hentry
          by_cases hsource : name = source
          · rw [hsource, Function.update_self] at hentry
            cases hentry
          · rw [Function.update_of_ne hsource] at hentry
            exact d.named _ (List.mem_cons_self ..) name i hentry
    | inr hold => exact d.named l hold name i hentry

def unlink (d : Volume) (name : Name) : Volume where
  files := d.files
  live := Function.update d.live name none
  older := d.live :: d.older
  named := by
    intro l hl other i hentry
    cases List.mem_cons.mp hl with
    | inl heq =>
        subst heq
        by_cases hname : other = name
        · rw [hname, Function.update_self] at hentry
          cases hentry
        · rw [Function.update_of_ne hname] at hentry
          exact d.named _ (List.mem_cons_self ..) other i hentry
    | inr hold => exact d.named l hold other i hentry

def syncDirectory (d : Volume) : Volume where
  files := d.files
  live := d.live
  older := []
  named := by
    intro l hl
    rw [List.mem_singleton] at hl
    rw [hl]
    exact d.named _ (List.mem_cons_self ..)

end Volume

/-! ## System calls -/

inductive Errno where
  | noEntry
  | alreadyExists
  | loop
  | isDirectory
  | badHandle
  | other
  deriving DecidableEq

/-- The system calls; an open file is known by its inode. -/
inductive Action where
  | random (length : Nat)
  /-- Whether a name is a symbolic link (`lstat`). -/
  | isLink (name : Name)
  /-- Open for reading, without following a link. -/
  | openRead (name : Name)
  | metadata (inode : Nat)
  | readToEnd (inode : Nat) (limit : Nat)
  /-- Open for writing a file that must not be there yet. -/
  | create (name : Name) (mode : Nat)
  | writeAll (inode : Nat) (bytes : List UInt8)
  | syncAll (inode : Nat)
  | rename (source target : Name)
  | unlink (name : Name)
  | syncDirectory

/-- What a call that succeeds returns: `openRead` the inode, if the name is a regular file;
`metadata` the mode and the length. -/
def Action.Answer : Action → Type
  | .random length => Fin length → UInt8
  | .isLink _ => Bool
  | .openRead _ => Option Nat
  | .metadata _ => Nat × Nat
  | .readToEnd _ _ => List UInt8
  | .create _ _ => Nat
  | .writeAll _ _ | .syncAll _ | .rename _ _ | .unlink _ | .syncDirectory => Unit

abbrev Action.Result (a : Action) : Type := Except Errno a.Answer

/-- What the file system does when nothing fails; `draw` is the random source. -/
def handle (draw : (n : Nat) → Fin n → UInt8) : (a : Action) → Volume → a.Result × Volume
  | .random length, d => (.ok (draw length), d)
  | .isLink name, d =>
    match d.live name with
    | none => (.error .noEntry, d)
    | some entry => (.ok (decide (entry = .link)), d)
  | .openRead name, d =>
    match d.live name with
    | none => (.error .noEntry, d)
    | some .link => (.error .loop, d)
    | some (.file i) => (.ok (some i), d)
    | some .directory | some .special => (.ok none, d)
  | .metadata i, d =>
    match d.files[i]? with
    | none => (.error .badHandle, d)
    | some f => (.ok (f.mode, f.content.length), d)
  | .readToEnd i limit, d =>
    match d.files[i]? with
    | none => (.error .badHandle, d)
    | some f => (.ok (f.content.take limit), d)
  | .create name mode, d =>
    match d.live name with
    | none => (.ok d.files.length, d.create name mode)
    | some _ => (.error .alreadyExists, d)
  | .writeAll i bytes, d => (.ok (), d.write i bytes)
  | .syncAll i, d => (.ok (), d.syncFile i)
  | .rename source target, d =>
    match d.live source, d.live target with
    | none, _ => (.error .noEntry, d)
    | some _, some .directory => (.error .isDirectory, d)
    | some _, _ => (.ok (), d.rename source target)
  | .unlink name, d =>
    match d.live name with
    | none => (.error .noEntry, d)
    | some .directory => (.error .isDirectory, d)
    | some _ => (.ok (), d.unlink name)
  | .syncDirectory, d => (.ok (), d.syncDirectory)

/-- What a call may do: what it is for, or fail without effect, or, when it writes, fail after a
part. -/
inductive Performs : (a : Action) → Volume → a.Result → Volume → Prop where
  | answered (draw : (n : Nat) → Fin n → UInt8) (a : Action) (d : Volume) :
      Performs a d (handle draw a d).1 (handle draw a d).2
  | failed (a : Action) (d : Volume) (e : Errno) : Performs a d (.error e) d
  | torn (i : Nat) (bytes part : List UInt8) (d : Volume) (e : Errno) (h : part <+: bytes) :
      Performs (.writeAll i bytes) d (.error e) (d.write i part)

/-- What a power loss may leave: the content of a file that was synced, and for every name what it
referred to at some moment since the directory was. -/
structure PowerLoss (d d' : Volume) : Prop where
  files : ∀ (i : Nat) (f : File), d.files[i]? = some f → f.synced = true → d'.files[i]? = some f
  names : ∀ name, ∃ l ∈ d.live :: d.older, d'.live name = l name

/-! ## What one call does -/

section Performs

variable {d d' : Volume} {name source target : Name} {i mode limit : Nat} {bytes : List UInt8}

theorem Performs.of_isLink {r : Except Errno Bool} (h : Performs (.isLink name) d r d') :
    d' = d := by
  cases h with
  | answered draw =>
      unfold handle
      dsimp only
      cases d.live name <;> rfl
  | failed e => rfl

theorem Performs.of_openRead {r : Except Errno (Option Nat)}
    (h : Performs (.openRead name) d r d') : d' = d := by
  cases h with
  | answered draw =>
      unfold handle
      dsimp only
      cases d.live name with
      | none => rfl
      | some entry => cases entry <;> rfl
  | failed e => rfl

theorem Performs.of_metadata {r : Except Errno (Nat × Nat)} (h : Performs (.metadata i) d r d') :
    d' = d := by
  cases h with
  | answered draw =>
      unfold handle
      dsimp only
      cases d.files[i]? <;> rfl
  | failed e => rfl

theorem Performs.of_readToEnd {r : Except Errno (List UInt8)}
    (h : Performs (.readToEnd i limit) d r d') : d' = d := by
  cases h with
  | answered draw =>
      unfold handle
      dsimp only
      cases d.files[i]? <;> rfl
  | failed e => rfl

theorem Performs.of_random {n : Nat} {r : Except Errno (Fin n → UInt8)}
    (h : Performs (.random n) d r d') : d' = d := by
  cases h with
  | answered draw => rfl
  | failed e => rfl

theorem Performs.of_create {r : Except Errno Nat} (h : Performs (.create name mode) d r d') :
    (d' = d ∧ ∃ e, r = .error e) ∨ (d' = d.create name mode ∧ r = .ok d.files.length) := by
  cases h with
  | answered draw =>
      unfold handle
      dsimp only
      cases d.live name with
      | none => exact Or.inr ⟨rfl, rfl⟩
      | some entry => exact Or.inl ⟨rfl, _, rfl⟩
  | failed e => exact Or.inl ⟨rfl, _, rfl⟩

theorem Performs.of_writeAll {r : Except Errno Unit} (h : Performs (.writeAll i bytes) d r d') :
    (d' = d ∧ ∃ e, r = .error e) ∨ (∃ part e, d' = d.write i part ∧ r = .error e)
      ∨ (d' = d.write i bytes ∧ r = .ok ()) := by
  cases h with
  | answered draw => exact Or.inr (Or.inr ⟨rfl, rfl⟩)
  | failed e => exact Or.inl ⟨rfl, _, rfl⟩
  | torn part e hpart => exact Or.inr (Or.inl ⟨_, _, rfl, rfl⟩)

theorem Performs.of_syncAll {r : Except Errno Unit} (h : Performs (.syncAll i) d r d') :
    (d' = d ∧ ∃ e, r = .error e) ∨ (d' = d.syncFile i ∧ r = .ok ()) := by
  cases h with
  | answered draw => exact Or.inr ⟨rfl, rfl⟩
  | failed e => exact Or.inl ⟨rfl, _, rfl⟩

theorem Performs.of_rename {r : Except Errno Unit} (h : Performs (.rename source target) d r d') :
    (d' = d ∧ ∃ e, r = .error e) ∨ (d' = d.rename source target ∧ r = .ok ()) := by
  cases h with
  | answered draw =>
      unfold handle
      dsimp only
      split
      · exact Or.inl ⟨rfl, _, rfl⟩
      · exact Or.inl ⟨rfl, _, rfl⟩
      · exact Or.inr ⟨rfl, rfl⟩
  | failed e => exact Or.inl ⟨rfl, _, rfl⟩

theorem Performs.of_unlink {r : Except Errno Unit} (h : Performs (.unlink name) d r d') :
    d' = d ∨ d' = d.unlink name := by
  cases h with
  | answered draw =>
      unfold handle
      dsimp only
      cases d.live name with
      | none => exact Or.inl rfl
      | some entry =>
          cases entry with
          | directory => exact Or.inl rfl
          | file i => exact Or.inr rfl
          | link | special => exact Or.inr rfl
  | failed e => exact Or.inl rfl

theorem Performs.of_syncDirectory {r : Except Errno Unit}
    (h : Performs .syncDirectory d r d') :
    (d' = d ∧ ∃ e, r = .error e) ∨ (d' = d.syncDirectory ∧ r = .ok ()) := by
  cases h with
  | answered draw => exact Or.inr ⟨rfl, rfl⟩
  | failed e => exact Or.inl ⟨rfl, _, rfl⟩

end Performs

/-- Only a rename onto a name can make it a directory. -/
theorem Performs.not_directory {a : Action} {r : a.Result} {d d' : Volume} {name : Name}
    (ha : ∀ source, a ≠ .rename source name) (h : Performs a d r d')
    (hname : d.live name ≠ some .directory) : d'.live name ≠ some .directory := by
  have hupdate : ∀ (l : Listing) (other : Name) (entry : Option Entry), entry ≠ some .directory →
      l name ≠ some .directory → Function.update l other entry name ≠ some .directory := by
    intro l other entry hentry hl
    by_cases heq : name = other
    · rw [heq, Function.update_self]
      exact hentry
    · rw [Function.update_of_ne heq]
      exact hl
  cases a with
  | random => rw [h.of_random]; exact hname
  | isLink => rw [h.of_isLink]; exact hname
  | openRead => rw [h.of_openRead]; exact hname
  | metadata => rw [h.of_metadata]; exact hname
  | readToEnd => rw [h.of_readToEnd]; exact hname
  | create other mode =>
      rcases h.of_create with ⟨rfl, -⟩ | ⟨rfl, -⟩
      · exact hname
      · exact hupdate d.live other _ (fun hdir => by cases hdir) hname
  | writeAll =>
      rcases h.of_writeAll with ⟨rfl, -⟩ | ⟨part, e, rfl, -⟩ | ⟨rfl, -⟩
      · exact hname
      · exact hname
      · exact hname
  | syncAll =>
      rcases h.of_syncAll with ⟨rfl, -⟩ | ⟨rfl, -⟩
      · exact hname
      · exact hname
  | rename source target =>
      rcases h.of_rename with ⟨rfl, -⟩ | ⟨rfl, -⟩
      · exact hname
      · have hne : name ≠ target := fun heq => ha source (by rw [heq])
        show Function.update (Function.update d.live source none) target _ name ≠ _
        rw [Function.update_of_ne hne]
        exact hupdate d.live source none (fun hdir => by cases hdir) hname
  | unlink other =>
      cases h.of_unlink with
      | inl hsame => rw [hsame]; exact hname
      | inr hgone =>
          rw [hgone]
          exact hupdate d.live other none (fun hdir => by cases hdir) hname
  | syncDirectory =>
      rcases h.of_syncDirectory with ⟨rfl, -⟩ | ⟨rfl, -⟩
      · exact hname
      · exact hname

/-! ## Atomic replacement -/

/-- Two volumes show the same under a name when it refers to the same inode and the inode is the
same. -/
theorem Volume.node_congr {d d' : Volume} {name : Name} (hlive : d'.live name = d.live name)
    (hfiles : ∀ i, d.live name = some (.file i) → d'.files[i]? = d.files[i]?) :
    d'.node name = d.node name := by
  unfold Volume.node
  rw [hlive]
  cases hentry : d.live name with
  | none => rfl
  | some entry =>
      cases entry with
      | file i =>
          show d'.files[i]?.map Node.file = d.files[i]?.map Node.file
          rw [hfiles i hentry]
      | link => rfl
      | directory => rfl
      | special => rfl

theorem Volume.node_of_file {d : Volume} {name : Name} {i : Nat} {f : File}
    (hlive : d.live name = some (.file i)) (hfile : d.files[i]? = some f) :
    d.node name = some (.file f) := by
  unfold Volume.node
  rw [hlive]
  show d.files[i]?.map Node.file = some (.file f)
  rw [hfile]
  rfl

/-- A name that shows nothing is free. -/
theorem Volume.live_of_node_none {d : Volume} {name : Name} (h : d.node name = none) :
    d.live name = none := by
  unfold Volume.node at h
  cases hentry : d.live name with
  | none => rfl
  | some entry =>
      rw [hentry] at h
      cases entry with
      | file i =>
          have hlt := d.named _ (List.mem_cons_self ..) name i hentry
          have hfile : d.files[i]? = some d.files[i] := List.getElem?_eq_getElem hlt
          dsimp only at h
          rw [hfile] at h
          cases h
      | link => cases h
      | directory => cases h
      | special => cases h

theorem Volume.live_of_node_file {d : Volume} {name : Name} {f : File}
    (h : d.node name = some (.file f)) :
    ∃ i, d.live name = some (.file i) ∧ d.files[i]? = some f := by
  unfold Volume.node at h
  cases hentry : d.live name with
  | none =>
      rw [hentry] at h
      cases h
  | some entry =>
      rw [hentry] at h
      cases entry with
      | file i =>
          obtain ⟨g, hfile, hg⟩ := Option.map_eq_some_iff.mp h
          cases hg
          exact ⟨i, rfl, hfile⟩
      | link => cases h
      | directory => cases h
      | special => cases h

section Replace

variable {d₀ d d' : Volume} {target temp name : Name} {i mode : Nat} {f : File} {bytes : List UInt8}

/-- Nothing has happened to the target, nor to any file there was. -/
structure Unreplaced (d₀ : Volume) (target : Name) (d : Volume) : Prop where
  grown : d₀.files.length ≤ d.files.length
  kept : ∀ i < d₀.files.length, d.files[i]? = d₀.files[i]?
  live : d.live target = d₀.live target
  names : ∀ l ∈ d.older, ∃ l₀ ∈ d₀.live :: d₀.older, l target = l₀ target

/-- Besides, a new file with this content is there under a temporary name. -/
structure Staged (d₀ : Volume) (target temp : Name) (i : Nat) (f : File) (d : Volume) : Prop
    extends Unreplaced d₀ target d where
  fresh : d₀.files.length ≤ i
  entry : d.live temp = some (.file i)
  file : d.files[i]? = some f

/-- The target refers to the new file; no file there was has changed. -/
structure Replaced (d₀ : Volume) (target : Name) (f : File) (d : Volume) : Prop where
  kept : ∀ i < d₀.files.length, d.files[i]? = d₀.files[i]?
  live : ∃ i, d.live target = some (.file i) ∧ d.files[i]? = some f
  names : ∀ l ∈ d.older, ∃ l₀ ∈ d₀.live :: d₀.older, l target = l₀ target

theorem Unreplaced.refl (d : Volume) (target : Name) : Unreplaced d target d where
  grown := Nat.le_refl _
  kept := fun _ _ => rfl
  live := rfl
  names := fun l hl => ⟨l, List.mem_cons_of_mem _ hl, rfl⟩

/-- A change of another name leaves one more listing behind, in which the target is as before. -/
theorem Unreplaced.older_cons (h : Unreplaced d₀ target d) :
    ∀ l ∈ d.live :: d.older, ∃ l₀ ∈ d₀.live :: d₀.older, l target = l₀ target := by
  intro l hl
  cases List.mem_cons.mp hl with
  | inl heq => exact ⟨d₀.live, List.mem_cons_self .., by rw [heq, h.live]⟩
  | inr hold => exact h.names l hold

theorem Unreplaced.unlink (h : Unreplaced d₀ target d) (hname : name ≠ target) :
    Unreplaced d₀ target (d.unlink name) where
  grown := h.grown
  kept := h.kept
  live := by
    show Function.update d.live name none target = d₀.live target
    rw [Function.update_of_ne (Ne.symm hname), h.live]
  names := h.older_cons

theorem Unreplaced.create (h : Unreplaced d₀ target d) (htemp : temp ≠ target) :
    Staged d₀ target temp d.files.length ⟨[], mode, false⟩ (d.create temp mode) where
  grown := by
    show d₀.files.length ≤ (d.files ++ [(⟨[], mode, false⟩ : File)]).length
    rw [List.length_append]
    have := h.grown
    omega
  kept := by
    intro i hi
    show (d.files ++ [⟨[], mode, false⟩])[i]? = d₀.files[i]?
    rw [List.getElem?_append_left (Nat.lt_of_lt_of_le hi h.grown), h.kept i hi]
  live := by
    show Function.update d.live temp _ target = d₀.live target
    rw [Function.update_of_ne (Ne.symm htemp), h.live]
  names := h.older_cons
  fresh := h.grown
  entry := Function.update_self ..
  file := by
    show (d.files ++ [⟨[], mode, false⟩])[d.files.length]? = some ⟨[], mode, false⟩
    rw [List.getElem?_concat_length]

/-- Changing the new file touches no file there was. -/
theorem Staged.modify (h : Staged d₀ target temp i f d) (change : File → File) :
    Staged d₀ target temp i (change f) (d.modify i change) where
  grown := by
    show d₀.files.length ≤ (d.files.modify i change).length
    rw [List.length_modify]
    exact h.grown
  kept := by
    intro j hj
    have hfresh := h.fresh
    have hne : i ≠ j := by omega
    show (d.files.modify i change)[j]? = d₀.files[j]?
    rw [List.getElem?_modify, h.kept j hj]
    simp [hne]
  live := h.live
  names := h.names
  fresh := h.fresh
  entry := h.entry
  file := by
    show (d.files.modify i change)[i]? = some (change f)
    rw [List.getElem?_modify, h.file]
    simp

theorem Staged.write (h : Staged d₀ target temp i f d) (bytes : List UInt8) :
    Staged d₀ target temp i { f with content := f.content ++ bytes, synced := false }
      (d.write i bytes) :=
  h.modify fun f => { f with content := f.content ++ bytes, synced := false }

theorem Staged.syncFile (h : Staged d₀ target temp i f d) :
    Staged d₀ target temp i { f with synced := true } (d.syncFile i) :=
  h.modify fun f => { f with synced := true }

theorem Staged.rename (h : Staged d₀ target temp i f d) :
    Replaced d₀ target f (d.rename temp target) where
  kept := h.kept
  live := by
    refine ⟨i, ?_, h.file⟩
    show Function.update (Function.update d.live temp none) target (d.live temp) target
      = some (.file i)
    rw [Function.update_self, h.entry]
  names := h.toUnreplaced.older_cons

theorem Replaced.syncDirectory (h : Replaced d₀ target f d) :
    Replaced d₀ target f d.syncDirectory where
  kept := h.kept
  live := h.live
  names := fun l hl => by cases hl

/-! ### What is found under the target -/

theorem Unreplaced.node_eq (h : Unreplaced d₀ target d) : d.node target = d₀.node target :=
  Volume.node_congr h.live fun i hentry =>
    h.kept i (d₀.named _ (List.mem_cons_self ..) target i hentry)

theorem Replaced.node_eq (h : Replaced d₀ target f d) : d.node target = some (.file f) := by
  obtain ⟨i, hlive, hfile⟩ := h.live
  exact Volume.node_of_file hlive hfile

/-- The target survives a power loss as it is. -/
structure Settled (d : Volume) (target : Name) : Prop where
  names : ∀ l ∈ d.older, l target = d.live target
  file : ∀ (i : Nat) (f : File),
    d.live target = some (.file i) → d.files[i]? = some f → f.synced = true

/-- Where a name refers to a settled target, a power loss leaves the target. -/
theorem Settled.node_eq (hsettled : Settled d₀ target)
    (hkept : ∀ i < d₀.files.length, d.files[i]? = d₀.files[i]?) (hloss : PowerLoss d d')
    (hlive : d'.live target = d₀.live target) : d'.node target = d₀.node target := by
  apply Volume.node_congr hlive
  intro i hentry
  have hlt := d₀.named _ (List.mem_cons_self ..) target i hentry
  have hfile : d₀.files[i]? = some d₀.files[i] := List.getElem?_eq_getElem hlt
  rw [hloss.files i d₀.files[i] (by rw [hkept i hlt, hfile]) (hsettled.file i _ hentry hfile), hfile]

/-- In every listing a power loss may go back to, a settled target is as it was. -/
theorem Settled.live_eq (hsettled : Settled d₀ target) {l : Listing}
    (hl : ∃ l₀ ∈ d₀.live :: d₀.older, l target = l₀ target) : l target = d₀.live target := by
  obtain ⟨l₀, hmem, heq⟩ := hl
  rw [heq]
  cases List.mem_cons.mp hmem with
  | inl hlive => rw [hlive]
  | inr hold => exact hsettled.names l₀ hold

theorem Unreplaced.powerLoss (h : Unreplaced d₀ target d) (hsettled : Settled d₀ target)
    (hloss : PowerLoss d d') : d'.node target = d₀.node target := by
  obtain ⟨l, hl, hname⟩ := hloss.names target
  apply hsettled.node_eq h.kept hloss
  rw [hname]
  exact hsettled.live_eq (h.older_cons l hl)

/-- Before the directory is synced, either the old target is found or the new one. -/
theorem Replaced.powerLoss (h : Replaced d₀ target f d) (hf : f.synced = true)
    (hsettled : Settled d₀ target) (hloss : PowerLoss d d') :
    d'.node target = d₀.node target ∨ d'.node target = some (.file f) := by
  obtain ⟨l, hl, hname⟩ := hloss.names target
  cases List.mem_cons.mp hl with
  | inl hlive =>
      obtain ⟨i, hentry, hfile⟩ := h.live
      rw [hlive, hentry] at hname
      exact Or.inr (Volume.node_of_file hname (hloss.files i f hfile hf))
  | inr hold =>
      apply Or.inl
      apply hsettled.node_eq h.kept hloss
      rw [hname]
      exact hsettled.live_eq (h.names l hold)

/-- Afterwards the new one is. -/
theorem Replaced.powerLoss_synced (h : Replaced d₀ target f d) (hf : f.synced = true)
    (hdirectory : d.older = []) (hloss : PowerLoss d d') :
    d'.node target = some (.file f) := by
  obtain ⟨l, hl, hname⟩ := hloss.names target
  rw [hdirectory, List.mem_singleton] at hl
  obtain ⟨i, hentry, hfile⟩ := h.live
  rw [hl, hentry] at hname
  exact Volume.node_of_file hname (hloss.files i f hfile hf)

end Replace

/-! ## Programs -/

/-- A program that ends with a value or an error. -/
abbrev Io (ε α : Type) : Type := Prog Action Action.Result (Except ε α)

section Call

variable {ε α : Type} {os : Errno → ε}

/-- A call whose failure ends the program. -/
def call (os : Errno → ε) (a : Action) (k : a.Answer → Io ε α) : Io ε α :=
  .act a fun
    | .ok answer => k answer
    | .error e => .ret (.error (os e))

def fail (e : ε) : Io ε α := .ret (.error e)

def done (a : α) : Io ε α := .ret (.ok a)

/-- A program and a last computation on its result. -/
def andThen {β : Type} (p : Io ε α) (f : α → Except ε β) : Io ε β :=
  p.bind fun r => .ret (r.bind f)

theorem run_andThen {β : Type} (h : (a : Action) → Volume → a.Result × Volume) (p : Io ε α)
    (f : α → Except ε β) (d : Volume) :
    (andThen p f).run h d = ((p.run h d).1.bind f, (p.run h d).2) := by
  unfold andThen
  induction p generalizing d with
  | ret r => rfl
  | act a k ih => exact ih _ _

theorem run_call_ok {h : (a : Action) → Volume → a.Result × Volume} {a : Action}
    {k : a.Answer → Io ε α} {d d' : Volume} {answer : a.Answer} (ha : h a d = (.ok answer, d')) :
    (call os a k).run h d = (k answer).run h d' := by
  rw [call, Prog.run_act, ha]

theorem run_call_error {h : (a : Action) → Volume → a.Result × Volume} {a : Action}
    {k : a.Answer → Io ε α} {d d' : Volume} {e : Errno} (ha : h a d = (.error e, d')) :
    (call os a k).run h d = (.error (os e), d') := by
  rw [call, Prog.run_act, ha]
  rfl

end Call

theorem only_call {ε α : Type} {os : Errno → ε} {P : Action → Prop} {a : Action}
    {k : a.Answer → Io ε α} (ha : P a) (hk : ∀ answer, (k answer).Only P) :
    (call os a k).Only P := by
  refine ⟨ha, ?_⟩
  intro r
  cases r with
  | ok answer => exact hk answer
  | error e => exact trivial

/-- A handler answers as the system may. -/
theorem passes_of_run {ε α : Type} (draw : (n : Nat) → Fin n → UInt8) (p : Io ε α) (d : Volume) :
    p.Passes Performs d (.ret (p.run (handle draw) d).1) (p.run (handle draw) d).2 :=
  .of_run (fun a d => .answered draw a d) p d

/-! ### What a handler answers -/

section Handle

variable {d : Volume} {draw : (n : Nat) → Fin n → UInt8} {name source target : Name} {mode : Nat}

theorem handle_create (h : d.live name = none) :
    handle draw (.create name mode) d = (.ok d.files.length, d.create name mode) := by
  simp only [handle, h]

theorem handle_rename {entry : Entry} (hsource : d.live source = some entry)
    (htarget : d.live target ≠ some .directory) :
    handle draw (.rename source target) d = (.ok (), d.rename source target) := by
  simp only [handle, hsource]

end Handle

/-! ### The rule of atomic replacement -/

section Rule

variable {ε : Type} {os : Errno → ε} {d₀ d : Volume} {target temp name : Name} {i mode : Nat}
  {f final : File} {bytes : List UInt8}

/-- A program that replaces the target: it may be stopped wherever the target is as it was or
complete. -/
abbrev replacing (d₀ : Volume) (target : Name) (final : File) : Arena Action Action.Result Volume :=
  .alone Performs fun d => Unreplaced d₀ target d ∨ Replaced d₀ target final d

/-- When it succeeds the target is complete and the directory synced. -/
def Complete (d₀ : Volume) (target : Name) (final : File) (r : Except ε Unit) (d : Volume) : Prop :=
  r = .ok () → Replaced d₀ target final d ∧ d.older = []

theorem complete_error (e : ε) : Complete d₀ target final (.error e) d := by
  intro h
  cases h

theorem safe_fail (e : ε) :
    (replacing d₀ target final).Safe (Complete d₀ target final) (fail e : Io ε Unit) d :=
  .alone_ret (complete_error e)

/-- A call that ends in a state where the program may be stopped, and that the rest continues. -/
theorem safe_call {a : Action} {k : a.Answer → Io ε Unit}
    (h : ∀ r d', Performs a d r d' →
      (Unreplaced d₀ target d' ∨ Replaced d₀ target final d')
        ∧ ∀ answer, r = .ok answer →
          (replacing d₀ target final).Safe (Complete d₀ target final) (k answer) d') :
    (replacing d₀ target final).Safe (Complete d₀ target final) (call os a k) d := by
  apply Arena.Safe.alone_act
  intro r d' hperforms
  obtain ⟨hinv, hok⟩ := h r d' hperforms
  refine ⟨hinv, ?_⟩
  cases r with
  | ok answer => exact hok answer rfl
  | error e => exact .alone_ret (complete_error (os e))

/-- A call that only looks. -/
theorem safe_call_look {a : Action} {k : a.Answer → Io ε Unit}
    (hlook : ∀ r d', Performs a d r d' → d' = d) (h : Unreplaced d₀ target d)
    (hk : ∀ answer, (replacing d₀ target final).Safe (Complete d₀ target final) (k answer) d) :
    (replacing d₀ target final).Safe (Complete d₀ target final) (call os a k) d := by
  apply safe_call
  intro r d' hperforms
  obtain rfl := hlook r d' hperforms
  exact ⟨Or.inl h, fun answer _ => hk answer⟩

theorem safe_call_create {k : Nat → Io ε Unit} (h : Unreplaced d₀ target d)
    (htemp : temp ≠ target)
    (hk : ∀ i d', Staged d₀ target temp i ⟨[], mode, false⟩ d' →
      (replacing d₀ target final).Safe (Complete d₀ target final) (k i) d') :
    (replacing d₀ target final).Safe (Complete d₀ target final)
      (call os (.create temp mode) k) d := by
  apply safe_call
  intro r d' hperforms
  rcases hperforms.of_create with ⟨rfl, e, rfl⟩ | ⟨rfl, rfl⟩
  · exact ⟨Or.inl h, fun _ herror => by cases herror⟩
  · have hstaged : Staged d₀ target temp d.files.length ⟨[], mode, false⟩ (d.create temp mode) :=
      h.create htemp
    refine ⟨Or.inl hstaged.toUnreplaced, ?_⟩
    intro answer hok
    cases hok
    exact hk _ _ hstaged

theorem safe_call_writeAll {k : Unit → Io ε Unit} (h : Staged d₀ target temp i ⟨[], mode, false⟩ d)
    (hk : ∀ d', Staged d₀ target temp i ⟨bytes, mode, false⟩ d' →
      (replacing d₀ target final).Safe (Complete d₀ target final) (k ()) d') :
    (replacing d₀ target final).Safe (Complete d₀ target final)
      (call os (.writeAll i bytes) k) d := by
  apply safe_call
  intro r d' hperforms
  rcases hperforms.of_writeAll with ⟨rfl, e, rfl⟩ | ⟨part, e, rfl, rfl⟩ | ⟨rfl, rfl⟩
  · exact ⟨Or.inl h.toUnreplaced, fun _ herror => by cases herror⟩
  · -- a torn write tears the new file only
    exact ⟨Or.inl (h.write part).toUnreplaced, fun _ herror => by cases herror⟩
  · have hwritten := h.write bytes
    exact ⟨Or.inl hwritten.toUnreplaced, fun _ _ => hk _ hwritten⟩

theorem safe_call_syncAll {k : Unit → Io ε Unit} (h : Staged d₀ target temp i f d)
    (hk : ∀ d', Staged d₀ target temp i { f with synced := true } d' →
      (replacing d₀ target final).Safe (Complete d₀ target final) (k ()) d') :
    (replacing d₀ target final).Safe (Complete d₀ target final) (call os (.syncAll i) k) d := by
  apply safe_call
  intro r d' hperforms
  rcases hperforms.of_syncAll with ⟨rfl, e, rfl⟩ | ⟨rfl, rfl⟩
  · exact ⟨Or.inl h.toUnreplaced, fun _ herror => by cases herror⟩
  · exact ⟨Or.inl h.syncFile.toUnreplaced, fun _ _ => hk _ h.syncFile⟩

theorem safe_call_rename {k : Unit → Io ε Unit} (h : Staged d₀ target temp i final d)
    (hk : ∀ d', Replaced d₀ target final d' →
      (replacing d₀ target final).Safe (Complete d₀ target final) (k ()) d') :
    (replacing d₀ target final).Safe (Complete d₀ target final)
      (call os (.rename temp target) k) d := by
  apply safe_call
  intro r d' hperforms
  rcases hperforms.of_rename with ⟨rfl, e, rfl⟩ | ⟨rfl, rfl⟩
  · exact ⟨Or.inl h.toUnreplaced, fun _ herror => by cases herror⟩
  · exact ⟨Or.inr h.rename, fun _ _ => hk _ h.rename⟩

theorem safe_call_syncDirectory (h : Replaced d₀ target final d) :
    (replacing d₀ target final).Safe (Complete d₀ target final)
      (call os .syncDirectory (fun _ => done ())) d := by
  apply safe_call
  intro r d' hperforms
  rcases hperforms.of_syncDirectory with ⟨rfl, e, rfl⟩ | ⟨rfl, rfl⟩
  · exact ⟨Or.inr h, fun _ herror => by cases herror⟩
  · exact ⟨Or.inr h.syncDirectory, fun _ _ => .alone_ret fun _ => ⟨h.syncDirectory, rfl⟩⟩

/-- What is found under the target of an interrupted replacement, without and with a power
loss. -/
structure Found (d₀ : Volume) (target : Name) (final : File) (succeeded : Prop) (d : Volume) : Prop where
  live : d.node target = d₀.node target ∨ d.node target = some (.file final)
  ok : succeeded → d.node target = some (.file final)
  lost : Settled d₀ target → ∀ d', PowerLoss d d' →
    d'.node target = d₀.node target ∨ d'.node target = some (.file final)
  lostOk : succeeded → ∀ d', PowerLoss d d' → d'.node target = some (.file final)

/-- **Atomic replacement.** Wherever a safe program is stopped, the target is as it was or
complete; if it succeeded, the target is complete and survives. -/
theorem found_of_safe {p q : Io ε Unit}
    (h : (replacing d₀ target final).Safe (Complete d₀ target final) p d₀)
    (hfinal : final.synced = true) (hpasses : p.Passes Performs d₀ q d) :
    Found d₀ target final (q = done ()) d := by
  obtain ⟨hinv, hrest⟩ := h.passes hpasses (Or.inl (.refl d₀ target))
  have hok : q = done () → Replaced d₀ target final d ∧ d.older = [] := by
    rintro rfl
    exact hrest.alone_of_ret hinv rfl
  constructor
  · cases hinv with
    | inl hold => exact Or.inl hold.node_eq
    | inr hnew => exact Or.inr hnew.node_eq
  · exact fun hdone => (hok hdone).1.node_eq
  · intro hsettled d' hloss
    cases hinv with
    | inl hold => exact Or.inl (hold.powerLoss hsettled hloss)
    | inr hnew => exact hnew.powerLoss hfinal hsettled hloss
  · intro hdone d' hloss
    obtain ⟨hnew, hdirectory⟩ := hok hdone
    exact hnew.powerLoss_synced hfinal hdirectory hloss

/-- **A record is replaced atomically and read back exactly**: what is read after a store that may
be stopped anywhere is what was read before or the new record, and the new record if the store
succeeded; also after a power loss, if the target had been synced before. -/
structure Atomic {γ : Type} (store : Io ε Unit) (target : Name) (read : Volume → γ) (new : γ)
    (d : Volume) : Prop where
  stopped : ∀ p d', store.Passes Performs d p d' → read d' = read d ∨ read d' = new
  succeeded : ∀ d', store.Passes Performs d (done ()) d' → read d' = new
  lost : Settled d target → ∀ p d', store.Passes Performs d p d' →
    ∀ d'', PowerLoss d' d'' → read d'' = read d ∨ read d'' = new
  lostAfter : ∀ d', store.Passes Performs d (done ()) d' →
    ∀ d'', PowerLoss d' d'' → read d'' = new

variable {γ : Type} {store : Io ε Unit} {read : Volume → γ} {new : γ}

/-- A safe program stores atomically for every reader of the target. -/
theorem atomic_of_safe (view : Option Node → γ) (hread : ∀ d, read d = view (d.node target))
    (h : (replacing d target final).Safe (Complete d target final) store d)
    (hfinal : final.synced = true) (hnew : view (some (.file final)) = new) :
    Atomic store target read new d where
  stopped := by
    intro p d' hpasses
    have hfound := found_of_safe h hfinal hpasses
    rw [hread, hread, ← hnew]
    exact hfound.live.imp (congrArg view) (congrArg view)
  succeeded := by
    intro d' hpasses
    have hfound := found_of_safe h hfinal hpasses
    rw [hread, ← hnew, hfound.ok rfl]
  lost := by
    intro hsettled p d' hpasses d'' hloss
    have hfound := found_of_safe h hfinal hpasses
    rw [hread, hread, ← hnew]
    exact (hfound.lost hsettled d'' hloss).imp (congrArg view) (congrArg view)
  lostAfter := by
    intro d' hpasses d'' hloss
    have hfound := found_of_safe h hfinal hpasses
    rw [hread, ← hnew, hfound.lostOk rfl d'' hloss]

/-- So does one that fails before any call. -/
theorem atomic_of_fail {e : ε} (view : Option Node → γ)
    (hread : ∀ d, read d = view (d.node target)) (hstore : store = fail e) :
    Atomic store target read new d where
  stopped := by
    intro p d' hpasses
    rw [hstore] at hpasses
    cases hpasses with
    | stop => exact Or.inl rfl
  succeeded := by
    intro d' hpasses
    rw [hstore] at hpasses
    cases hpasses
  lost := by
    intro hsettled p d' hpasses d'' hloss
    rw [hstore] at hpasses
    cases hpasses with
    | stop =>
        rw [hread, hread]
        exact Or.inl (congrArg view ((Unreplaced.refl d target).powerLoss hsettled hloss))
  lostAfter := by
    intro d' hpasses
    rw [hstore] at hpasses
    cases hpasses

end Rule

/-- A directory without entries. -/
def Volume.empty : Volume where
  files := []
  live := fun _ => none
  older := []
  named := by
    intro l hl name i hentry
    rw [List.mem_singleton] at hl
    rw [hl] at hentry
    cases hentry

end Directory
