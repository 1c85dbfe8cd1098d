import QoSFabric.Foundation.Program
import Mathlib.Data.List.AList

/-!
# A directory of files

A directory maps names to files, and a handle keeps naming the file it was opened on when the
name is given to another file. Writes go to the end of the file.
-/

namespace FileSystem

open Interaction

abbrev Handle := Nat

/-- A directory: no two names share a file, and every named file has been allocated. -/
structure Disk (Name : Type) [DecidableEq Name] where
  names : AList fun _ : Name => Nat
  data : Nat → List UInt8
  next : Nat
  distinct : ∀ a b i, names.lookup a = some i → names.lookup b = some i → a = b
  allocated : ∀ a i, names.lookup a = some i → i < next

inductive Request (Name : Type) where
  | exists_ (name : Name)
  | read (name : Name)
  | create (name : Name)
  | openAppend (name : Name)
  | write (handle : Handle) (bytes : List UInt8)
  | sync (handle : Handle)
  | rename (source target : Name)
  | remove (name : Name)
  | truncate (name : Name) (length : Nat)
  | list
  | syncDirectory

def Reply {Name : Type} : Request Name → Type
  | .exists_ _ => Bool
  | .read _ => Option (List UInt8)
  | .create _ | .openAppend _ => Option Handle
  | .write _ _ | .sync _ | .rename _ _ => Bool
  | .remove _ | .truncate _ _ => Unit
  | .list => List Name
  | .syncDirectory => Bool

abbrev Fs (Name : Type) := Program (Request Name) Reply

namespace Fs

variable {Name : Type}

def exists_ (name : Name) : Fs Name Bool :=
  Program.perform (Request.exists_ name)
def read (name : Name) : Fs Name (Option (List UInt8)) :=
  Program.perform (Request.read name)
def create (name : Name) : Fs Name (Option Handle) :=
  Program.perform (Request.create name)
def openAppend (name : Name) : Fs Name (Option Handle) :=
  Program.perform (Request.openAppend name)
def write (handle : Handle) (bytes : List UInt8) : Fs Name Bool :=
  Program.perform (Request.write handle bytes)
def sync (handle : Handle) : Fs Name Bool :=
  Program.perform (Request.sync handle)
def rename (source target : Name) : Fs Name Bool :=
  Program.perform (Request.rename source target)
def remove (name : Name) : Fs Name Unit :=
  Program.perform (Request.remove name)
def truncate (name : Name) (length : Nat) : Fs Name Unit :=
  Program.perform (Request.truncate name length)
def list : Fs Name (List Name) := Program.perform Request.list
def syncDirectory : Fs Name Bool := Program.perform Request.syncDirectory

end Fs

namespace Disk

variable {Name : Type} [DecidableEq Name]

def empty : Disk Name where
  names := ∅
  data := fun _ => []
  next := 0
  distinct := by simp
  allocated := by simp

def file (d : Disk Name) (name : Name) : Option Handle := d.names.lookup name

def content (d : Disk Name) (name : Name) : Option (List UInt8) := (d.file name).map d.data

def setData (d : Disk Name) (handle : Handle) (bytes : List UInt8) : Disk Name :=
  { d with data := Function.update d.data handle bytes }

def link (d : Disk Name) (name : Name) : Disk Name where
  names := d.names.insert name d.next
  data := Function.update d.data d.next []
  next := d.next + 1
  distinct := by
    intro a b i ha hb
    by_cases eqA : a = name <;> by_cases eqB : b = name
    · rw [eqA, eqB]
    · subst eqA
      rw [AList.lookup_insert, Option.some.injEq] at ha
      rw [AList.lookup_insert_ne eqB] at hb
      exact absurd (d.allocated b i hb) (by simp [← ha])
    · subst eqB
      rw [AList.lookup_insert, Option.some.injEq] at hb
      rw [AList.lookup_insert_ne eqA] at ha
      exact absurd (d.allocated a i ha) (by simp [← hb])
    · rw [AList.lookup_insert_ne eqA] at ha
      rw [AList.lookup_insert_ne eqB] at hb
      exact d.distinct a b i ha hb
  allocated := by
    intro a i ha
    by_cases eq : a = name
    · subst eq
      rw [AList.lookup_insert, Option.some.injEq] at ha
      exact ha ▸ Nat.lt_succ_self d.next
    · rw [AList.lookup_insert_ne eq] at ha
      exact Nat.lt_succ_of_lt (d.allocated a i ha)

def remove (d : Disk Name) (name : Name) : Disk Name where
  names := d.names.erase name
  data := d.data
  next := d.next
  distinct := by
    intro a b i ha hb
    by_cases eqA : a = name
    · subst eqA
      simp at ha
    by_cases eqB : b = name
    · subst eqB
      simp at hb
    rw [AList.lookup_erase_ne eqA] at ha
    rw [AList.lookup_erase_ne eqB] at hb
    exact d.distinct a b i ha hb
  allocated := by
    intro a i ha
    by_cases eq : a = name
    · subst eq
      simp at ha
    · rw [AList.lookup_erase_ne eq] at ha
      exact d.allocated a i ha

def move (d : Disk Name) (source target : Name) (handle : Handle)
    (named : d.names.lookup source = some handle) : Disk Name where
  names := (d.names.erase source).insert target handle
  data := d.data
  next := d.next
  distinct := by
    have elsewhere : ∀ x, x ≠ target →
        ((d.names.erase source).insert target handle).lookup x ≠ some handle := by
      intro x ne hx
      rw [AList.lookup_insert_ne ne] at hx
      by_cases eq : x = source
      · subst eq
        simp at hx
      · rw [AList.lookup_erase_ne eq] at hx
        exact eq (d.distinct x source handle hx named)
    intro a b i ha hb
    by_cases eqA : a = target <;> by_cases eqB : b = target
    · rw [eqA, eqB]
    · subst eqA
      rw [AList.lookup_insert, Option.some.injEq] at ha
      exact absurd (ha ▸ hb) (elsewhere b eqB)
    · subst eqB
      rw [AList.lookup_insert, Option.some.injEq] at hb
      exact absurd (hb ▸ ha) (elsewhere a eqA)
    · rw [AList.lookup_insert_ne eqA] at ha
      rw [AList.lookup_insert_ne eqB] at hb
      exact (d.remove source).distinct a b i ha hb
  allocated := by
    intro a i ha
    by_cases eq : a = target
    · subst eq
      rw [AList.lookup_insert, Option.some.injEq] at ha
      exact ha ▸ d.allocated source handle named
    · rw [AList.lookup_insert_ne eq] at ha
      exact (d.remove source).allocated a i ha

def create (d : Disk Name) (name : Name) : Handle × Disk Name :=
  match d.file name with
  | some handle => (handle, d.setData handle [])
  | none => (d.next, d.link name)

def openAppend (d : Disk Name) (name : Name) : Handle × Disk Name :=
  match d.file name with
  | some handle => (handle, d)
  | none => (d.next, d.link name)

def write (d : Disk Name) (handle : Handle) (bytes : List UInt8) : Disk Name :=
  d.setData handle (d.data handle ++ bytes)

def rename (d : Disk Name) (source target : Name) : Bool × Disk Name :=
  match h : d.names.lookup source with
  | some handle => (true, d.move source target handle h)
  | none => (false, d)

def truncate (d : Disk Name) (name : Name) (length : Nat) : Disk Name :=
  match d.file name with
  | some handle =>
      d.setData handle ((d.data handle).take length ++
        List.replicate (length - (d.data handle).length) 0)
  | none => d

def answer (d : Disk Name) : (r : Request Name) → Reply r × Disk Name
  | .exists_ name => ((d.file name).isSome, d)
  | .read name => (d.content name, d)
  | .create name => (some (d.create name).1, (d.create name).2)
  | .openAppend name => (some (d.openAppend name).1, (d.openAppend name).2)
  | .write handle bytes => (true, d.write handle bytes)
  | .sync _ => (true, d)
  | .rename source target => d.rename source target
  | .remove name => ((), d.remove name)
  | .truncate name length => ((), d.truncate name length)
  | .list => (d.names.keys, d)
  | .syncDirectory => (true, d)

variable {d : Disk Name} {name other : Name} {handle : Nat}

theorem content_of_file (h : d.file name = some handle) :
    d.content name = some (d.data handle) := by
  rw [content, h, Option.map_some]

theorem content_eq_some {bytes : List UInt8} :
    d.content name = some bytes ↔ ∃ handle, d.file name = some handle ∧ d.data handle = bytes := by
  rw [content, Option.map_eq_some_iff]

theorem content_of_same_file {e : Disk Name} (named : e.file name = d.file name)
    (same : ∀ i, d.file name = some i → e.data i = d.data i) : e.content name = d.content name := by
  rw [content, content, named]
  cases h : d.file name with
  | none => rfl
  | some i => exact congrArg some (same i h)

theorem file_injective (ha : d.file name = some handle) (hb : d.file other = some handle) :
    name = other :=
  d.distinct name other handle ha hb

@[simp] theorem file_setData (i : Nat) (bytes : List UInt8) :
    (d.setData i bytes).file name = d.file name := rfl

@[simp] theorem data_setData_self (bytes : List UInt8) :
    (d.setData handle bytes).data handle = bytes := Function.update_self ..

theorem data_setData_of_ne {i : Nat} (ne : i ≠ handle) (bytes : List UInt8) :
    (d.setData handle bytes).data i = d.data i := Function.update_of_ne ne ..

@[simp] theorem file_link_self : (d.link name).file name = some d.next := by
  simp [link, file]

theorem file_link_of_ne (ne : other ≠ name) : (d.link name).file other = d.file other := by
  simp [link, file, AList.lookup_insert_ne ne]

@[simp] theorem file_remove_self : (d.remove name).file name = none := by
  simp [remove, file]

theorem file_remove_of_ne (ne : other ≠ name) : (d.remove name).file other = d.file other := by
  simp [remove, file, AList.lookup_erase_ne ne]

@[simp] theorem data_remove : (d.remove name).data = d.data := rfl

theorem content_remove_of_ne (ne : other ≠ name) :
    (d.remove name).content other = d.content other :=
  content_of_same_file (file_remove_of_ne ne) fun _ _ => rfl

@[simp] theorem file_create_self : (d.create name).2.file name = some (d.create name).1 := by
  unfold create
  split
  · assumption
  · simp

theorem file_create_of_ne (ne : other ≠ name) :
    (d.create name).2.file other = d.file other := by
  unfold create
  split
  · rfl
  · exact file_link_of_ne ne

@[simp] theorem data_create_self : (d.create name).2.data (d.create name).1 = [] := by
  unfold create
  split
  · simp
  · exact Function.update_self ..

theorem create_fresh (ne : other ≠ name) (h : d.file other = some handle) :
    handle ≠ (d.create name).1 := by
  unfold create
  split
  · next i named => exact fun eq => ne (file_injective h (eq ▸ named))
  · exact Nat.ne_of_lt (d.allocated other handle h)

theorem data_create_of_ne {i : Nat} (ne : i ≠ (d.create name).1) :
    (d.create name).2.data i = d.data i := by
  unfold create at ne ⊢
  split at ne
  · exact data_setData_of_ne ne []
  · exact Function.update_of_ne ne ..

theorem content_create_self : (d.create name).2.content name = some [] := by
  rw [content_of_file file_create_self, data_create_self]

theorem content_create_of_ne (ne : other ≠ name) :
    (d.create name).2.content other = d.content other :=
  content_of_same_file (file_create_of_ne ne) fun _ h => data_create_of_ne (create_fresh ne h)

theorem create_of_absent (h : d.file name = none) : d.create name = (d.next, d.link name) := by
  rw [create, h]

theorem openAppend_of_file (h : d.file name = some handle) : d.openAppend name = (handle, d) := by
  rw [openAppend, h]

theorem openAppend_of_absent (h : d.file name = none) : d.openAppend name = (d.next, d.link name) := by
  rw [openAppend, h]

theorem length_keys_openAppend : d.names.keys.length ≤ (d.openAppend name).2.names.keys.length := by
  cases file : d.file name with
  | some handle => rw [openAppend_of_file file]
  | none =>
      have absent : name ∉ d.names.keys := AList.lookup_eq_none.mp file
      rw [openAppend_of_absent file]
      show _ ≤ (d.names.insert name d.next).keys.length
      rw [AList.keys_insert, List.erase_of_not_mem absent]
      exact Nat.le_succ _

@[simp] theorem file_write (i : Nat) (bytes : List UInt8) :
    (d.write i bytes).file name = d.file name := rfl

@[simp] theorem data_write_self (bytes : List UInt8) :
    (d.write handle bytes).data handle = d.data handle ++ bytes := data_setData_self _

theorem data_write_of_ne {i : Nat} (ne : i ≠ handle) (bytes : List UInt8) :
    (d.write handle bytes).data i = d.data i := data_setData_of_ne ne _

theorem content_write_self (h : d.file name = some handle) (bytes : List UInt8) :
    (d.write handle bytes).content name = some (d.data handle ++ bytes) := by
  rw [content_eq_some]
  exact ⟨handle, h, data_write_self _⟩

theorem content_write_of_ne (bytes : List UInt8) (ne : d.file other ≠ some handle) :
    (d.write handle bytes).content other = d.content other :=
  content_of_same_file rfl fun _ h => data_write_of_ne (by rintro rfl; exact ne h) bytes

variable {source target : Name}

theorem rename_of_file (h : d.file source = some handle) :
    d.rename source target = (true, d.move source target handle h) := by
  unfold rename
  split
  · next i named =>
      obtain rfl : handle = i := Option.some.inj (h.symm.trans named)
      rfl
  · next missing => exact absurd (h.symm.trans missing) (by simp)

@[simp] theorem file_move_target (h : d.file source = some handle) :
    (d.move source target handle h).file target = some handle := by
  simp [move, file]

theorem file_move_source (h : d.file source = some handle) (ne : source ≠ target) :
    (d.move source target handle h).file source = none := by
  simp [move, file, AList.lookup_insert_ne ne]

theorem file_move_of_ne (h : d.file source = some handle) (ns : other ≠ source)
    (nt : other ≠ target) : (d.move source target handle h).file other = d.file other := by
  simp [move, file, AList.lookup_insert_ne nt, AList.lookup_erase_ne ns]

@[simp] theorem data_move (h : d.file source = some handle) :
    (d.move source target handle h).data = d.data := rfl

theorem content_move_target (h : d.file source = some handle) :
    (d.move source target handle h).content target = some (d.data handle) :=
  content_of_file (file_move_target h)

theorem content_move_of_ne (h : d.file source = some handle) (ns : other ≠ source)
    (nt : other ≠ target) : (d.move source target handle h).content other = d.content other :=
  content_of_same_file (file_move_of_ne h ns nt) fun _ _ => rfl

theorem truncate_of_file (h : d.file name = some handle) {length : Nat}
    (le : length ≤ (d.data handle).length) :
    d.truncate name length = d.setData handle ((d.data handle).take length) := by
  rw [truncate, h]
  simp only [Nat.sub_eq_zero_of_le le, List.replicate_zero, List.append_nil]

theorem content_truncate_self {length : Nat} {bytes : List UInt8}
    (h : d.content name = some bytes) (le : length ≤ bytes.length) :
    (d.truncate name length).content name = some (bytes.take length) := by
  obtain ⟨i, file, rfl⟩ := content_eq_some.mp h
  rw [truncate_of_file file le, content_eq_some]
  exact ⟨i, file, data_setData_self _⟩

@[simp] theorem file_truncate {length : Nat} :
    (d.truncate name length).file other = d.file other := by
  unfold truncate
  split <;> rfl

theorem names_truncate {length : Nat} : (d.truncate name length).names = d.names := by
  unfold truncate
  split <;> rfl

theorem content_truncate_of_ne {length : Nat} (ne : other ≠ name) :
    (d.truncate name length).content other = d.content other := by
  refine content_of_same_file file_truncate fun i h => ?_
  unfold truncate
  split
  · next k named => exact data_setData_of_ne (by rintro rfl; exact ne (file_injective h named)) _
  · rfl

/-- A crash cuts a write short; every other request happens or does not. -/
inductive Breaks : Disk Name → Request Name → Disk Name → Prop where
  | write {d : Disk Name} {handle : Handle} {bytes : List UInt8} (n : Nat) :
      Breaks d (.write handle bytes) (d.write handle (bytes.take n))

abbrev world : Program.World (Request Name) Reply (Disk Name) :=
  Program.answering answer Breaks

/-- A program that leaves the directory as it is. -/
inductive Reading {α : Type} : Fs Name α → Prop where
  | done (a : α) : Reading (Program.done a)
  | exists_ {name : Name} {next : Bool → Fs Name α} (rest : ∀ reply, Reading (next reply)) :
      Reading (Program.ask (Request.exists_ name) next)
  | read {name : Name} {next : Option (List UInt8) → Fs Name α}
      (rest : ∀ reply, Reading (next reply)) : Reading (Program.ask (Request.read name) next)
  | list {next : List Name → Fs Name α} (rest : ∀ reply, Reading (next reply)) :
      Reading (Program.ask Request.list next)

def Naming (names : Name → Prop) : Request Name → Prop
  | .create name | .openAppend name => names name
  | .rename _ target => names target
  | _ => True

omit [DecidableEq Name] in
theorem Naming.mono {names more : Name → Prop} (le : ∀ name, names name → more name)
    {r : Request Name} (naming : Naming names r) : Naming more r := by
  cases r with
  | create name | openAppend name => exact le name naming
  | rename source target => exact le target naming
  | _ => trivial

theorem named_create {named : Name} (h : (d.create name).2.file named ≠ none) :
    named = name ∨ d.file named ≠ none := by
  by_cases eq : named = name
  · exact .inl eq
  · rw [file_create_of_ne eq] at h
    exact .inr h

theorem named_remove {named : Name} (h : (d.remove name).file named ≠ none) :
    d.file named ≠ none := by
  rintro absent
  by_cases eq : named = name
  · rw [eq, file_remove_self] at h
    exact h rfl
  · rw [file_remove_of_ne eq] at h
    exact h absent

theorem named_openAppend {named : Name} (h : (d.openAppend name).2.file named ≠ none) :
    named = name ∨ d.file named ≠ none := by
  cases file : d.file name with
  | none =>
      by_cases eq : named = name
      · exact .inl eq
      · rw [openAppend_of_absent file, file_link_of_ne eq] at h
        exact .inr h
  | some handle =>
      rw [openAppend_of_file file] at h
      exact .inr h

theorem named_rename {source target named : Name}
    (h : (d.rename source target).2.file named ≠ none) : named = target ∨ d.file named ≠ none := by
  cases file : d.file source with
  | none =>
      unfold rename at h
      split at h
      · next found => cases file.symm.trans found
      · exact .inr h
  | some handle =>
      rw [rename_of_file file] at h
      by_cases eq : named = target
      · exact .inl eq
      by_cases moved : named = source
      · rw [moved, file]
        exact .inr nofun
      · rw [file_move_of_ne file moved eq] at h
        exact .inr h

theorem named_answer {names : Name → Prop} (r : Request Name) (naming : Naming names r)
    (d : Disk Name) (h : ∀ name, d.file name ≠ none → names name) :
    ∀ name, (answer d r).2.file name ≠ none → names name := by
  intro named present
  cases r with
  | create name =>
      rcases named_create present with rfl | before
      · exact naming
      · exact h named before
  | openAppend name =>
      rcases named_openAppend present with rfl | before
      · exact naming
      · exact h named before
  | rename source target =>
      rcases named_rename present with rfl | before
      · exact naming
      · exact h named before
  | remove name => exact h named (named_remove present)
  | truncate name length =>
      rw [show (answer d (.truncate name length)).2 = d.truncate name length from rfl,
        file_truncate] at present
      exact h named present
  | write handle bytes => exact h named present
  | _ => exact h named present

section Weakest

variable {α : Type} {crash : Disk Name → Prop} {post : α → Disk Name → Prop} {bytes : List UInt8}
  {f : Option Handle → Fs Name α} {g : Bool → Fs Name α} {k : Unit → Fs Name α}

theorem wp_whole {r : Request Name} {next : Reply r → Fs Name α}
    (whole : ∀ e, ¬Breaks d r e) :
    (Program.ask r next).wp world crash post d ↔
      crash d ∧ (next (answer d r).1).wp world crash post (answer d r).2 := by
  rw [Program.wp_ask_answering]
  exact and_congr_right fun _ => ⟨And.right, fun h => ⟨fun e broken => absurd broken (whole e), h⟩⟩

theorem Reading.wp {p : Fs Name α} (reading : Reading p) (safe : crash d)
    (done : ∀ a, p.run answer d = (a, d) → post a d) : p.wp world crash post d := by
  induction reading with
  | done a => exact ⟨safe, done a rfl⟩
  | exists_ _ ih => exact (wp_whole (r := .exists_ _) fun _ broken => nomatch broken).mpr ⟨safe, ih _ done⟩
  | read _ ih => exact (wp_whole (r := .read _) fun _ broken => nomatch broken).mpr ⟨safe, ih _ done⟩
  | list _ ih => exact (wp_whole (r := .list) fun _ broken => nomatch broken).mpr ⟨safe, ih _ done⟩

theorem Reading.run {p : Fs Name α} (reading : Reading p) (d : Disk Name) :
    (p.run answer d).2 = d := by
  induction reading with
  | done a => rfl
  | exists_ _ ih => exact ih _
  | read _ ih => exact ih _
  | list _ ih => exact ih _

theorem Reading.wp_of_run {p : Fs Name α} {a : α} (reading : Reading p)
    (run : p.run answer d = (a, d)) (safe : crash d) (done : post a d) :
    p.wp world crash post d := by
  apply reading.wp safe
  intro b ended
  rw [ended] at run
  cases run
  exact done

omit [DecidableEq Name] in
theorem Reading.bind {β : Type} {p : Fs Name α} {f : α → Fs Name β} (first : Reading p)
    (rest : ∀ a, Reading (f a)) : Reading (p >>= f) := by
  induction first with
  | done a => exact rest a
  | exists_ _ ih => exact .exists_ ih
  | read _ ih => exact .read ih
  | list _ ih => exact .list ih

omit [DecidableEq Name] in
theorem Reading.ite {p q : Fs Name α} {condition : Prop} [Decidable condition] (yes : Reading p)
    (no : Reading q) : Reading (if condition then p else q) := by
  split
  · exact yes
  · exact no

theorem wp_create : (Fs.create name >>= f).wp world crash post d ↔
    crash d ∧ (f (some (d.create name).1)).wp world crash post (d.create name).2 :=
  wp_whole fun _ broken => nomatch broken

theorem wp_openAppend : (Fs.openAppend name >>= f).wp world crash post d ↔
    crash d ∧ (f (some (d.openAppend name).1)).wp world crash post (d.openAppend name).2 :=
  wp_whole fun _ broken => nomatch broken

theorem wp_write : (Fs.write handle bytes >>= g).wp world crash post d ↔
    crash d ∧ (∀ n, crash (d.write handle (bytes.take n))) ∧
      (g true).wp world crash post (d.write handle bytes) := by
  refine Program.wp_ask_answering.trans (and_congr_right fun _ => and_congr_left fun _ => ?_)
  constructor
  · intro h n
    exact h _ (.write n)
  · intro h e broken
    cases broken with
    | write n => exact h n

theorem wp_sync : (Fs.sync handle >>= g).wp world crash post d ↔
    crash d ∧ (g true).wp world crash post d :=
  wp_whole fun _ broken => nomatch broken

theorem wp_rename : (Fs.rename source target >>= g).wp world crash post d ↔
    crash d ∧ (g (d.rename source target).1).wp world crash post (d.rename source target).2 :=
  wp_whole fun _ broken => nomatch broken

theorem wp_remove : (Fs.remove name >>= k).wp world crash post d ↔
    crash d ∧ (k ()).wp world crash post (d.remove name) :=
  wp_whole fun _ broken => nomatch broken

theorem wp_truncate {length : Nat} : (Fs.truncate name length >>= k).wp world crash post d ↔
    crash d ∧ (k ()).wp world crash post (d.truncate name length) :=
  wp_whole fun _ broken => nomatch broken

theorem wp_syncDirectory : (Fs.syncDirectory >>= g).wp world crash post d ↔
    crash d ∧ (g true).wp world crash post d :=
  wp_whole fun _ broken => nomatch broken

end Weakest

end Disk

end FileSystem
