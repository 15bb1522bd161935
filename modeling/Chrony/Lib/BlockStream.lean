import Mathlib.Data.List.GetD
import Mathlib.Data.List.Range
import Mathlib.Logic.Function.Basic

/-!
# Streams of Blocks

A message is processed in blocks of a fixed size, but its elements come one after the other: they
are collected in a buffer, and the block is processed when the buffer is full. The state does not
depend on how the message is divided.

## Main results

* `Absorbed.foldl`: the state after a message is the one of its whole blocks.
* `blocks_append`: the blocks of a longer message.
-/

namespace Chrony.Lib.BlockStream

variable {α S : Type*}

/-- The state with the elements which are collected. -/
structure Stream (α S : Type*) where
  state : S
  buffer : ℕ → α
  fill : ℕ

variable (size : ℕ) (compress : S → (ℕ → α) → S)

/-- The next element. -/
def Stream.push (s : Stream α S) (a : α) : Stream α S :=
  let buffer := Function.update s.buffer s.fill a
  if s.fill + 1 = size then ⟨compress s.state buffer, buffer, 0⟩
  else ⟨s.state, buffer, s.fill + 1⟩

/-- Only the elements of a block are used. -/
def Reads : Prop := ∀ s b b', (∀ k < size, b k = b' k) → compress s b = compress s b'

variable [Inhabited α]

/-- A block of a message. -/
def block (message : List α) (j k : ℕ) : α := message.getD (size * j + k) default

/-- The state after a number of blocks of a message. -/
def firstBlocks (init : S) (message : List α) (count : ℕ) : S :=
  (List.range count).foldl (fun s j => compress s (block size message j)) init

/-- The state after all whole blocks of a message. -/
def blocks (init : S) (message : List α) : S :=
  firstBlocks size compress init message (message.length / size)

/-- A message is processed, and the rest of it is collected. -/
structure Absorbed (init : S) (message : List α) (s : Stream α S) : Prop where
  state : s.state = blocks size compress init message
  fill : s.fill = message.length % size
  buffer : ∀ k < s.fill, s.buffer k = block size message (message.length / size) k

variable {size : ℕ} {compress : S → (ℕ → α) → S} {init : S} {message tail : List α}

theorem block_append {j k : ℕ} (h : size * j + k < message.length) :
    block size (message ++ tail) j k = block size message j k :=
  List.getD_append _ _ _ _ h

theorem firstBlocks_succ (count : ℕ) :
    firstBlocks size compress init message (count + 1) =
      compress (firstBlocks size compress init message count) (block size message count) := by
  rw [firstBlocks, List.range_succ, List.foldl_append]
  rfl

/-- The first blocks of a message are not changed by what follows. -/
theorem firstBlocks_append (hreads : Reads size compress) {count : ℕ}
    (h : size * count ≤ message.length) :
    firstBlocks size compress init (message ++ tail) count =
      firstBlocks size compress init message count := by
  refine List.foldl_ext _ _ _ fun s j hj => hreads _ _ _ fun k hk => block_append ?_
  have hj : j + 1 ≤ count := List.mem_range.mp hj
  calc size * j + k < size * (j + 1) := by rw [Nat.mul_succ]; omega
    _ ≤ size * count := Nat.mul_le_mul_left size hj
    _ ≤ message.length := h

/-- **The next block of a message which is continued.** -/
theorem blocks_append (hreads : Reads size compress)
    (h : (message ++ tail).length / size = message.length / size + 1) :
    blocks size compress init (message ++ tail) =
      compress (blocks size compress init message)
        (block size (message ++ tail) (message.length / size)) := by
  rw [blocks, h, firstBlocks_succ, firstBlocks_append hreads (Nat.mul_div_le _ _), blocks]

theorem blocks_append_of_lt (hreads : Reads size compress)
    (h : (message ++ tail).length / size = message.length / size) :
    blocks size compress init (message ++ tail) = blocks size compress init message := by
  rw [blocks, h, firstBlocks_append hreads (Nat.mul_div_le _ _), blocks]

/-- **One element is absorbed.** -/
theorem Absorbed.push (hsize : 0 < size) (hreads : Reads size compress) {s : Stream α S}
    (h : Absorbed size compress init message s) (a : α) :
    Absorbed size compress init (message ++ [a]) (s.push size compress a) := by
  have hlength : (message ++ [a]).length = size * (message.length / size) + (s.fill + 1) := by
    rw [List.length_append, List.length_singleton, h.fill, ← Nat.add_assoc, Nat.div_add_mod]
  have hlt : s.fill < size := h.fill ▸ Nat.mod_lt _ hsize
  -- the buffer has the elements of the block up to the new one
  have hbuffer : ∀ k < s.fill + 1, Function.update s.buffer s.fill a k =
      block size (message ++ [a]) (message.length / size) k := by
    intro k hk
    by_cases heq : k = s.fill
    · have hindex : size * (message.length / size) + k = message.length := by
        rw [heq, h.fill, Nat.div_add_mod]
      rw [heq, Function.update_self, ← heq, block, hindex, List.getD_append_right _ _ _ _ le_rfl]
      simp
    · have hindex : size * (message.length / size) + k < message.length := by
        rw [List.length_append, List.length_singleton] at hlength
        omega
      rw [Function.update_of_ne heq, block_append hindex, h.buffer k (by omega)]
  rw [Stream.push]
  by_cases hfull : s.fill + 1 = size
  · rw [hfull, ← Nat.mul_succ] at hlength
    have hdiv : (message ++ [a]).length / size = message.length / size + 1 := by
      rw [hlength, Nat.mul_div_cancel_left _ hsize]
    rw [if_pos hfull]
    refine ⟨?_, ?_, fun k hk => absurd hk (Nat.not_lt_zero k)⟩
    · rw [blocks_append hreads hdiv, ← h.state]
      exact hreads _ _ _ fun k hk => hbuffer k (hfull ▸ hk)
    · rw [hlength, Nat.mul_mod_right]
  · have hlt' : s.fill + 1 < size := by omega
    have hdiv : (message ++ [a]).length / size = message.length / size := by
      rw [hlength, Nat.mul_add_div hsize, Nat.div_eq_of_lt hlt', Nat.add_zero]
    rw [if_neg hfull]
    refine ⟨?_, ?_, fun k hk => ?_⟩
    · rw [blocks_append_of_lt hreads hdiv, ← h.state]
    · rw [hlength, Nat.mul_add_mod, Nat.mod_eq_of_lt hlt']
    · rw [hdiv]
      exact hbuffer k hk

/-- **A part of a message is absorbed.** -/
theorem Absorbed.foldl (hsize : 0 < size) (hreads : Reads size compress) {s : Stream α S}
    (h : Absorbed size compress init message s) (tail : List α) :
    Absorbed size compress init (message ++ tail) (tail.foldl (Stream.push size compress) s) := by
  induction tail generalizing message s with
  | nil => rwa [List.append_nil]
  | cons a tail ih =>
      rw [List.foldl_cons, List.append_cons]
      exact ih (h.push hsize hreads a)

theorem absorbed_nil (buffer : ℕ → α) : Absorbed size compress init [] ⟨init, buffer, 0⟩ where
  state := by simp [blocks, firstBlocks]
  fill := (Nat.zero_mod _).symm
  buffer := fun k hk => absurd hk (Nat.not_lt_zero k)

end Chrony.Lib.BlockStream
