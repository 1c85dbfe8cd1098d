import QoSFabric.Foundation.FileSystem

/-!
# A directory whose operations may fail

Any change of a directory may fail, which is answered by saying so where the operation has an answer.
A write that fails may leave some of its bytes behind. What is there can be read.
-/

namespace FileSystem

open Interaction

namespace Disk

variable {Name : Type} [DecidableEq Name]

/-- A request that fails, and the directory behind it. -/
inductive Fails : Disk Name → (r : Request Name) → Reply r → Disk Name → Prop where
  | create {d : Disk Name} {name : Name} : Fails d (.create name) (none : Option Handle) d
  | openAppend {d : Disk Name} {name : Name} : Fails d (.openAppend name) (none : Option Handle) d
  | write {d : Disk Name} {handle : Handle} {bytes : List UInt8} (n : Nat) :
      Fails d (.write handle bytes) false (d.write handle (bytes.take n))
  | sync {d : Disk Name} {handle : Handle} : Fails d (.sync handle) false d
  | rename {d : Disk Name} {source target : Name} : Fails d (.rename source target) false d
  | remove {d : Disk Name} {name : Name} : Fails d (.remove name) () d
  | truncate {d : Disk Name} {name : Name} {length : Nat} : Fails d (.truncate name length) () d
  | syncDirectory {d : Disk Name} : Fails d .syncDirectory false d

def faultyWorld : Program.World (Request Name) Reply (Disk Name) where
  answers d r reply d' := answer d r = (reply, d') ∨ Fails d r reply d'
  breaks := Breaks

variable {α : Type} {d : Disk Name} {name source target : Name} {handle : Handle}
  {bytes : List UInt8} {crash : Disk Name → Prop} {post : α → Disk Name → Prop}
  {f : Option Handle → Fs Name α} {g : Bool → Fs Name α} {k : Unit → Fs Name α}
  {h : Option (List UInt8) → Fs Name α}

theorem ends_faulty {p : Fs Name α} {d' : Disk Name} {a : α} (ends : p.Ends world d a d') :
    p.Ends faultyWorld d a d' := by
  induction ends with
  | done => exact .done
  | answered answer _ ih => exact .answered (.inl answer) ih

theorem wp_faulty {r : Request Name} {next : Reply r → Fs Name α} :
    (Program.ask r next).wp faultyWorld crash post d ↔
      crash d ∧ (∀ e, Breaks d r e → crash e) ∧
        (next (answer d r).1).wp faultyWorld crash post (answer d r).2 ∧
        ∀ reply e, Fails d r reply e → (next reply).wp faultyWorld crash post e := by
  refine Program.wp_ask.trans (and_congr_right fun _ => and_congr_right fun _ => ⟨?_, ?_⟩)
  · intro h
    exact ⟨h _ _ (.inl rfl), fun reply e fails => h reply e (.inr fails)⟩
  · rintro ⟨succeeded, failed⟩ reply e (answered | fails)
    · have answered : answer d r = (reply, e) := answered
      rw [answered] at succeeded
      exact succeeded
    · exact failed reply e fails

theorem wp_faulty_read : (Fs.read name >>= h).wp faultyWorld crash post d ↔
    crash d ∧ (h (d.content name)).wp faultyWorld crash post d := by
  refine wp_faulty.trans (and_congr_right fun _ => ⟨fun h => h.2.1, fun h => ⟨?_, h, ?_⟩⟩)
  · exact fun _ broken => by cases broken
  · exact fun _ _ fails => by cases fails

theorem wp_faulty_create : (Fs.create name >>= f).wp faultyWorld crash post d ↔
    crash d ∧ (f none).wp faultyWorld crash post d ∧
      (f (some (d.create name).1)).wp faultyWorld crash post (d.create name).2 := by
  refine wp_faulty.trans (and_congr_right fun _ => ⟨fun h => ⟨h.2.2 _ _ .create, h.2.1⟩, ?_⟩)
  rintro ⟨failed, succeeded⟩
  refine ⟨fun _ broken => (by cases broken), succeeded, fun _ _ fails => ?_⟩
  cases fails
  exact failed

theorem wp_faulty_write : (Fs.write handle bytes >>= g).wp faultyWorld crash post d ↔
    crash d ∧ (∀ n, crash (d.write handle (bytes.take n)) ∧
        (g false).wp faultyWorld crash post (d.write handle (bytes.take n))) ∧
      (g true).wp faultyWorld crash post (d.write handle bytes) := by
  refine wp_faulty.trans (and_congr_right fun _ => ⟨?_, ?_⟩)
  · exact fun h => ⟨fun n => ⟨h.1 _ (.write n), h.2.2 _ _ (.write n)⟩, h.2.1⟩
  · rintro ⟨short, succeeded⟩
    refine ⟨fun _ broken => ?_, succeeded, fun _ _ fails => ?_⟩
    · cases broken with
      | write n => exact (short n).1
    · cases fails with
      | write n => exact (short n).2

theorem wp_faulty_sync : (Fs.sync handle >>= g).wp faultyWorld crash post d ↔
    crash d ∧ (g false).wp faultyWorld crash post d ∧ (g true).wp faultyWorld crash post d := by
  refine wp_faulty.trans (and_congr_right fun _ => ⟨fun h => ⟨h.2.2 _ _ .sync, h.2.1⟩, ?_⟩)
  rintro ⟨failed, succeeded⟩
  refine ⟨fun _ broken => (by cases broken), succeeded, fun _ _ fails => ?_⟩
  cases fails
  exact failed

theorem wp_faulty_rename : (Fs.rename source target >>= g).wp faultyWorld crash post d ↔
    crash d ∧ (g false).wp faultyWorld crash post d ∧
      (g (d.rename source target).1).wp faultyWorld crash post (d.rename source target).2 := by
  refine wp_faulty.trans (and_congr_right fun _ => ⟨fun h => ⟨h.2.2 _ _ .rename, h.2.1⟩, ?_⟩)
  rintro ⟨failed, succeeded⟩
  refine ⟨fun _ broken => (by cases broken), succeeded, fun _ _ fails => ?_⟩
  cases fails
  exact failed

theorem wp_faulty_remove : (Fs.remove name >>= k).wp faultyWorld crash post d ↔
    crash d ∧ (k ()).wp faultyWorld crash post d ∧
      (k ()).wp faultyWorld crash post (d.remove name) := by
  refine wp_faulty.trans (and_congr_right fun _ => ⟨fun h => ⟨h.2.2 _ _ .remove, h.2.1⟩, ?_⟩)
  rintro ⟨failed, succeeded⟩
  refine ⟨fun _ broken => (by cases broken), succeeded, fun _ _ fails => ?_⟩
  cases fails
  exact failed

end Disk

end FileSystem
