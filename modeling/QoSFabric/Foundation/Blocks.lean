import Mathlib.Data.List.Basic

/-!
# Absorbing blocks

A state takes a stream block by block, and what is less than a block waits. However the stream is
cut into chunks, what has been absorbed is the same.
-/

namespace Blocks

variable {α σ : Type} {size : Nat} {f : σ → List α → σ}

def blocks (size : Nat) (items : List α) : List (List α) :=
  (List.range (items.length / size)).map fun i => (items.drop (size * i)).take size

theorem blocks_append {block : List α} (positive : 0 < size) (whole : block.length = size)
    (items : List α) : blocks size (block ++ items) = block :: blocks size items := by
  have count : (block ++ items).length / size = items.length / size + 1 := by
    rw [List.length_append, whole, Nat.add_comm, Nat.add_div_right _ positive]
  have later (i : Nat) : (block ++ items).drop (size * (i + 1)) = items.drop (size * i) := by
    rw [Nat.mul_succ, Nat.add_comm, ← List.drop_drop, ← whole, List.drop_left]
  rw [blocks, count, List.range_succ_eq_map, List.map_cons, List.map_map]
  congr 1
  · rw [Nat.mul_zero, List.drop_zero, ← whole, List.take_left]
  · exact List.map_congr_left fun i _ => congrArg (List.take size) (later i)

theorem blocks_of_short {items : List α} (short : items.length < size) : blocks size items = [] := by
  rw [blocks, Nat.div_eq_of_lt short]
  rfl

/-- A state that has taken every whole block of some items, and the rest that waits. -/
inductive Absorbed (size : Nat) (f : σ → List α → σ) : σ → List α → σ → List α → Prop where
  | rest {s : σ} {rest : List α} (short : rest.length < size) : Absorbed size f s rest s rest
  | block {s t : σ} {block items rest : List α} (whole : block.length = size)
      (later : Absorbed size f (f s block) items t rest) : Absorbed size f s (block ++ items) t rest

variable {s t u : σ} {items more rest left : List α}

theorem Absorbed.short (absorbed : Absorbed size f s items t rest) : rest.length < size := by
  induction absorbed with
  | rest short => exact short
  | block _ _ ih => exact ih

theorem Absorbed.append (absorbed : Absorbed size f s items t rest)
    (next : Absorbed size f t (rest ++ more) u left) : Absorbed size f s (items ++ more) u left := by
  induction absorbed with
  | rest _ => exact next
  | block whole _ ih =>
      rw [List.append_assoc]
      exact .block whole (ih next)

theorem Absorbed.foldl_blocks (absorbed : Absorbed size f s items t rest) :
    t = (blocks size items).foldl f s := by
  induction absorbed with
  | rest short => rw [blocks_of_short short, List.foldl_nil]
  | @block s t block items rest whole later ih =>
      have positive : 0 < size := Nat.zero_lt_of_lt later.short
      rw [blocks_append positive whole, List.foldl_cons, ← ih]

theorem Absorbed.length (absorbed : Absorbed size f s items t rest) :
    rest.length = items.length % size := by
  induction absorbed with
  | rest short => exact (Nat.mod_eq_of_lt short).symm
  | block whole _ ih => rw [List.length_append, whole, Nat.add_mod_left, ih]

end Blocks
