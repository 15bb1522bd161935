import Chrony.Lib.BlockStream
import Mathlib

/-!
# MD5

The functions of `md5.c`, and the hash function of `hash_intmd5.c` over them. A message is given
in any number of parts, with a context which is used for one message after the other.

The digest of a message is stated for the whole message: its padding has the number of bits as a
64-bit number.

## Main results

* `run_digest`: the digest does not depend on how the message is divided.
* `hash_eq`: the hash of two buffers is the one of their concatenation.
-/

namespace Chrony.Md5

open Lib.BlockStream (Absorbed Reads Stream block blocks)

abbrev Byte := BitVec 8

abbrev Word := BitVec 32

/-! ### The transformation -/

/-- The four words of the state. -/
structure Regs where
  a : Word
  b : Word
  c : Word
  d : Word
  deriving DecidableEq

/-- The basic functions `F`, `G`, `H` and `I`. -/
inductive Basic
  | f
  | g
  | h
  | i

def Basic.apply (x y z : Word) : Basic → Word
  | .f => (x &&& y) ||| (~~~x &&& z)
  | .g => (x &&& z) ||| (y &&& ~~~z)
  | .h => x ^^^ y ^^^ z
  | .i => y ^^^ (x ||| ~~~z)

/-- The arguments of `FF`, `GG`, `HH` and `II` which are not registers. -/
structure Step where
  basic : Basic
  index : ℕ
  shift : ℕ
  ac : Word

/-- One of `FF`, `GG`, `HH` and `II`. The registers change their places after each step, in the
order in which they are the first argument. -/
def Regs.step (input : ℕ → Word) (r : Regs) (s : Step) : Regs :=
  ⟨r.d, (r.a + s.basic.apply r.b r.c r.d + input s.index + s.ac).rotateLeft s.shift + r.b,
    r.b, r.c⟩

/-- The four rounds of `Transform`. -/
def steps : List Step :=
  [⟨.f, 0, 7, 0xd76aa478⟩, ⟨.f, 1, 12, 0xe8c7b756⟩,
    ⟨.f, 2, 17, 0x242070db⟩, ⟨.f, 3, 22, 0xc1bdceee⟩,
    ⟨.f, 4, 7, 0xf57c0faf⟩, ⟨.f, 5, 12, 0x4787c62a⟩,
    ⟨.f, 6, 17, 0xa8304613⟩, ⟨.f, 7, 22, 0xfd469501⟩,
    ⟨.f, 8, 7, 0x698098d8⟩, ⟨.f, 9, 12, 0x8b44f7af⟩,
    ⟨.f, 10, 17, 0xffff5bb1⟩, ⟨.f, 11, 22, 0x895cd7be⟩,
    ⟨.f, 12, 7, 0x6b901122⟩, ⟨.f, 13, 12, 0xfd987193⟩,
    ⟨.f, 14, 17, 0xa679438e⟩, ⟨.f, 15, 22, 0x49b40821⟩,
    ⟨.g, 1, 5, 0xf61e2562⟩, ⟨.g, 6, 9, 0xc040b340⟩,
    ⟨.g, 11, 14, 0x265e5a51⟩, ⟨.g, 0, 20, 0xe9b6c7aa⟩,
    ⟨.g, 5, 5, 0xd62f105d⟩, ⟨.g, 10, 9, 0x2441453⟩,
    ⟨.g, 15, 14, 0xd8a1e681⟩, ⟨.g, 4, 20, 0xe7d3fbc8⟩,
    ⟨.g, 9, 5, 0x21e1cde6⟩, ⟨.g, 14, 9, 0xc33707d6⟩,
    ⟨.g, 3, 14, 0xf4d50d87⟩, ⟨.g, 8, 20, 0x455a14ed⟩,
    ⟨.g, 13, 5, 0xa9e3e905⟩, ⟨.g, 2, 9, 0xfcefa3f8⟩,
    ⟨.g, 7, 14, 0x676f02d9⟩, ⟨.g, 12, 20, 0x8d2a4c8a⟩,
    ⟨.h, 5, 4, 0xfffa3942⟩, ⟨.h, 8, 11, 0x8771f681⟩,
    ⟨.h, 11, 16, 0x6d9d6122⟩, ⟨.h, 14, 23, 0xfde5380c⟩,
    ⟨.h, 1, 4, 0xa4beea44⟩, ⟨.h, 4, 11, 0x4bdecfa9⟩,
    ⟨.h, 7, 16, 0xf6bb4b60⟩, ⟨.h, 10, 23, 0xbebfbc70⟩,
    ⟨.h, 13, 4, 0x289b7ec6⟩, ⟨.h, 0, 11, 0xeaa127fa⟩,
    ⟨.h, 3, 16, 0xd4ef3085⟩, ⟨.h, 6, 23, 0x4881d05⟩,
    ⟨.h, 9, 4, 0xd9d4d039⟩, ⟨.h, 12, 11, 0xe6db99e5⟩,
    ⟨.h, 15, 16, 0x1fa27cf8⟩, ⟨.h, 2, 23, 0xc4ac5665⟩,
    ⟨.i, 0, 6, 0xf4292244⟩, ⟨.i, 7, 10, 0x432aff97⟩,
    ⟨.i, 14, 15, 0xab9423a7⟩, ⟨.i, 5, 21, 0xfc93a039⟩,
    ⟨.i, 12, 6, 0x655b59c3⟩, ⟨.i, 3, 10, 0x8f0ccc92⟩,
    ⟨.i, 10, 15, 0xffeff47d⟩, ⟨.i, 1, 21, 0x85845dd1⟩,
    ⟨.i, 8, 6, 0x6fa87e4f⟩, ⟨.i, 15, 10, 0xfe2ce6e0⟩,
    ⟨.i, 6, 15, 0xa3014314⟩, ⟨.i, 13, 21, 0x4e0811a1⟩,
    ⟨.i, 4, 6, 0xf7537e82⟩, ⟨.i, 11, 10, 0xbd3af235⟩,
    ⟨.i, 2, 15, 0x2ad7d2bb⟩, ⟨.i, 9, 21, 0xeb86d391⟩]

/-- `Transform`. -/
def transform (buf : Regs) (input : ℕ → Word) : Regs :=
  let r := steps.foldl (Regs.step input) buf
  ⟨buf.a + r.a, buf.b + r.b, buf.c + r.c, buf.d + r.d⟩

/-! ### The context -/

/-- A word of a buffer. -/
def word (input : ℕ → Byte) (i : ℕ) : Word :=
  (input (4 * i + 3)).setWidth 32 <<< 24 ||| (input (4 * i + 2)).setWidth 32 <<< 16 |||
    (input (4 * i + 1)).setWidth 32 <<< 8 ||| (input (4 * i)).setWidth 32

def compress (buf : Regs) (input : ℕ → Byte) : Regs := transform buf (word input)

/-- `MD5_CTX`, without the digest. -/
structure Context where
  i0 : Word
  i1 : Word
  buf : Regs
  input : ℕ → Byte

/-- The state at the start of a message. -/
def initBuf : Regs := ⟨0x67452301, 0xefcdab89, 0x98badcfe, 0x10325476⟩

namespace Context

variable (ctx : Context)

/-- `MD5Init`. The input buffer keeps its content. -/
def init : Context := { ctx with i0 := 0, i1 := 0, buf := initBuf }

/-- `mdi`, the number of bytes in the input buffer. -/
def mdi : ℕ := ((ctx.i0 >>> 3) &&& 0x3f#32).toNat

/-- `MD5Update`, with a length which is an `unsigned int`. -/
def update (inBuf : List Byte) : Context :=
  let inLen : Word := BitVec.ofNat 32 inBuf.length
  let i1 := if ctx.i0 + inLen <<< 3 < ctx.i0 then ctx.i1 + 1 else ctx.i1
  let s := inBuf.foldl (Stream.push 64 compress) ⟨ctx.buf, ctx.input, ctx.mdi⟩
  { i0 := ctx.i0 + inLen <<< 3
    i1 := i1 + inLen >>> 29
    buf := s.state
    input := s.buffer }

end Context

/-- `PADDING`. -/
def padding : List Byte := 0x80 :: List.replicate 63 0

/-- `padLen`. -/
def padLen (mdi : ℕ) : ℕ := if mdi < 56 then 56 - mdi else 120 - mdi

/-- The bytes of a word in the digest. -/
def wordBytes (w : Word) : List Byte :=
  [w.setWidth 8, (w >>> 8).setWidth 8, (w >>> 16).setWidth 8, (w >>> 24).setWidth 8]

def Regs.bytes (r : Regs) : List Byte :=
  wordBytes r.a ++ wordBytes r.b ++ wordBytes r.c ++ wordBytes r.d

/-- `MD5Final`. The result is the digest. -/
def Context.final (ctx : Context) : List Byte :=
  let padded := ctx.update (padding.take (padLen ctx.mdi))
  let input := fun i => if i = 14 then ctx.i0 else if i = 15 then ctx.i1 else word padded.input i
  (transform padded.buf input).bytes

/-- `HSH_Hash` of `hash_intmd5.c`, with lengths which are not negative. -/
def hash (ctx : Context) (in1 : List Byte) (in2 : Option (List Byte)) (outLen : ℕ) : List Byte :=
  let ctx := ctx.init.update in1
  let ctx :=
    match in2 with
    | some in2 => ctx.update in2
    | none => ctx
  ctx.final.take (min outLen 16)

/-! ### The digest of a message -/

/-- A 64-bit number, with the least significant byte first. -/
def lengthBytes (n : ℕ) : List Byte := (List.range 8).map fun k => BitVec.ofNat 8 (n >>> (8 * k))

/-- **The padded message** is a number of whole blocks. -/
def pad (message : List Byte) : List Byte :=
  message ++ padding.take (padLen (message.length % 64)) ++ lengthBytes (8 * message.length)

/-- **The digest of a message.** -/
def digest (message : List Byte) : List Byte :=
  (blocks 64 compress initBuf (pad message)).bytes

/-- The digest of the empty message. -/
example : digest [] = [0xd4, 0x1d, 0x8c, 0xd9, 0x8f, 0x00, 0xb2, 0x04, 0xe9, 0x80, 0x09, 0x98,
    0xec, 0xf8, 0x42, 0x7e] := by decide +kernel

/-! ### The words of a block -/

theorem transform_congr (buf : Regs) {input input' : ℕ → Word}
    (h : ∀ i < 16, input i = input' i) : transform buf input = transform buf input' := by
  have hindex : ∀ s ∈ steps, s.index < 16 := by decide
  have hsteps : steps.foldl (Regs.step input) buf = steps.foldl (Regs.step input') buf :=
    List.foldl_ext _ _ _ fun r s hs => by rw [Regs.step, Regs.step, h s.index (hindex s hs)]
  rw [transform, transform, hsteps]

theorem word_congr {input input' : ℕ → Byte} {i : ℕ}
    (h : ∀ k, 4 * i ≤ k → k < 4 * i + 4 → input k = input' k) : word input i = word input' i := by
  rw [word, word, h (4 * i) (by omega) (by omega), h (4 * i + 1) (by omega) (by omega),
    h (4 * i + 2) (by omega) (by omega), h (4 * i + 3) (by omega) (by omega)]

theorem reads_compress : Reads 64 compress := fun buf b b' h =>
  transform_congr buf fun i hi => word_congr fun k _ hk => h k (by omega)

/-- The bits of one byte of a number, in its place in a word. -/
theorem getLsbD_byte (n s : ℕ) {j : ℕ} (hj : j < 32) :
    (((BitVec.ofNat 8 (n >>> s)).setWidth 32 : Word) <<< s).getLsbD j =
      (decide (s ≤ j ∧ j < s + 8) && n.testBit j) := by
  rw [BitVec.getLsbD_shiftLeft, BitVec.getLsbD_setWidth, BitVec.getLsbD_ofNat,
    Nat.testBit_shiftRight]
  by_cases hs : s ≤ j
  · have hindex : s + (j - s) = j := by omega
    have hbyte : j - s < 8 ↔ j < s + 8 := by omega
    have hword : j - s < 32 := by omega
    simp [hindex, hbyte, hword, hs, hj]
  · simp [hs, not_le.mp hs]

/-- The bytes of a number make its word. -/
theorem word_ofNat {input : ℕ → Byte} {n i : ℕ}
    (h : ∀ k < 4, input (4 * i + k) = BitVec.ofNat 8 (n >>> (8 * k))) :
    word input i = BitVec.ofNat 32 n := by
  have h0 := h 0 (by omega)
  rw [Nat.add_zero] at h0
  rw [word, h0, h 1 (by omega), h 2 (by omega), h 3 (by omega)]
  refine BitVec.eq_of_getLsbD_eq fun j hj => ?_
  have hfirst := getLsbD_byte n 0 hj
  rw [BitVec.shiftLeft_zero] at hfirst
  have hone := getLsbD_byte n 8 hj
  have htwo := getLsbD_byte n 16 hj
  have hthree := getLsbD_byte n 24 hj
  rw [BitVec.getLsbD_or, BitVec.getLsbD_or, BitVec.getLsbD_or, hfirst, hone, htwo, hthree,
    BitVec.getLsbD_ofNat]
  cases n.testBit j with
  | false => simp
  | true =>
      simp [hj]
      omega

/-! ### Messages in parts -/

/-- **The context of a message**: the number of its bits, the state after its whole blocks, and
the rest of it in the input buffer. -/
structure Holds (message : List Byte) (ctx : Context) : Prop where
  i0 : ctx.i0 = BitVec.ofNat 32 (8 * message.length)
  i1 : ctx.i1 = BitVec.ofNat 32 (8 * message.length / 2 ^ 32)
  absorbed : Absorbed 64 compress initBuf message ⟨ctx.buf, ctx.input, message.length % 64⟩

variable {message : List Byte} {ctx : Context}

theorem holds_init (ctx : Context) : Holds [] ctx.init where
  i0 := rfl
  i1 := rfl
  absorbed := Lib.BlockStream.absorbed_nil _

theorem Holds.mdi (h : Holds message ctx) : ctx.mdi = message.length % 64 := by
  have hmask : (0x3f#32).toNat = 2 ^ 6 - 1 := rfl
  rw [Context.mdi, h.i0, BitVec.toNat_and, hmask, Nat.and_two_pow_sub_one_eq_mod,
    BitVec.toNat_ushiftRight, Nat.shiftRight_eq_div_pow, BitVec.toNat_ofNat]
  omega

/-- **The number of bits is counted in two words**, with the carry of the first one. -/
theorem count_update {n k : ℕ} (hk : k < 2 ^ 32) :
    let i0 : Word := BitVec.ofNat 32 (8 * n)
    let i1 : Word := BitVec.ofNat 32 (8 * n / 2 ^ 32)
    let inLen : Word := BitVec.ofNat 32 k
    i0 + inLen <<< 3 = BitVec.ofNat 32 (8 * (n + k)) ∧
      (if i0 + inLen <<< 3 < i0 then i1 + 1 else i1) + inLen >>> 29 =
        BitVec.ofNat 32 (8 * (n + k) / 2 ^ 32) := by
  intro i0 i1 inLen
  have hsum : (i0 + inLen <<< 3).toNat = 8 * (n + k) % 2 ^ 32 := by
    simp only [i0, inLen, BitVec.toNat_add, BitVec.toNat_shiftLeft, BitVec.toNat_ofNat,
      Nat.shiftLeft_eq]
    omega
  have hi0 : i0.toNat = 8 * n % 2 ^ 32 := BitVec.toNat_ofNat ..
  have hhigh : (inLen >>> 29).toNat = 8 * k / 2 ^ 32 := by
    simp only [inLen, BitVec.toNat_ushiftRight, BitVec.toNat_ofNat, Nat.shiftRight_eq_div_pow]
    omega
  have hi1 : i1.toNat = 8 * n / 2 ^ 32 % 2 ^ 32 := BitVec.toNat_ofNat ..
  refine ⟨BitVec.eq_of_toNat_eq (by rw [hsum, BitVec.toNat_ofNat]), BitVec.eq_of_toNat_eq ?_⟩
  have hcarry : i0 + inLen <<< 3 < i0 ↔ 8 * (n + k) % 2 ^ 32 < 8 * n % 2 ^ 32 := by
    rw [BitVec.lt_def, hsum, hi0]
  rw [BitVec.toNat_add, hhigh, BitVec.toNat_ofNat]
  split
  next hlt =>
    rw [hcarry] at hlt
    have hone : (1 : Word).toNat = 1 := rfl
    rw [BitVec.toNat_add, hi1, hone]
    omega
  next hge =>
    rw [hcarry] at hge
    rw [hi1]
    omega

/-- **One part of a message.** -/
theorem Holds.update (h : Holds message ctx) {inBuf : List Byte} (hlen : inBuf.length < 2 ^ 32) :
    Holds (message ++ inBuf) (ctx.update inBuf) := by
  have hstream := h.absorbed.foldl (by decide) reads_compress inBuf
  obtain ⟨hi0, hi1⟩ := count_update (n := message.length) hlen
  rw [Context.update, h.mdi, h.i0, h.i1]
  refine ⟨?_, ?_, ?_⟩
  · rw [List.length_append]
    exact hi0
  · rw [List.length_append]
    exact hi1
  · rw [← hstream.fill]
    exact hstream

theorem Holds.foldl (h : Holds message ctx) {parts : List (List Byte)}
    (hlen : ∀ part ∈ parts, part.length < 2 ^ 32) :
    Holds (message ++ parts.flatten) (parts.foldl Context.update ctx) := by
  induction parts generalizing message ctx with
  | nil => rwa [List.flatten_nil, List.append_nil]
  | cons part parts ih =>
      obtain ⟨hpart, hparts⟩ := List.forall_mem_cons.mp hlen
      rw [List.flatten_cons, ← List.append_assoc]
      exact ih (h.update hpart) hparts

/-! ### The end of a message -/

theorem length_padding_take {mdi : ℕ} (hmdi : mdi < 64) :
    (padding.take (padLen mdi)).length = padLen mdi := by
  rw [List.length_take, min_eq_left]
  rw [padLen]
  split
  · exact le_trans (Nat.sub_le _ _) (by decide)
  · exact le_trans (show 120 - mdi ≤ 64 by omega) (by decide)

/-- The padding leaves eight bytes of a block. -/
theorem padded_mod (n : ℕ) : (n + padLen (n % 64)) % 64 = 56 := by
  rw [padLen]
  split
  · omega
  · omega

theorem getD_lengthBytes (n : ℕ) {k : ℕ} (hk : k < 8) :
    (lengthBytes n).getD k default = BitVec.ofNat 8 (n >>> (8 * k)) := by
  simp [lengthBytes, List.getD_eq_getElem?_getD, hk]

/-- **The digest of the message which was given.** -/
theorem Holds.final (h : Holds message ctx) : ctx.final = digest message := by
  have hlt : message.length % 64 < 64 := Nat.mod_lt _ (by decide)
  have hpadding := length_padding_take hlt
  have hpadLen : padLen (message.length % 64) < 2 ^ 32 := by
    rw [padLen]
    split
    · omega
    · omega
  have hholds : Holds (message ++ padding.take (padLen (message.length % 64)))
      (ctx.update (padding.take (padLen (message.length % 64)))) :=
    h.update (hpadding.trans_lt hpadLen)
  rw [Context.final, digest, pad, h.mdi]
  generalize hpadded : message ++ padding.take (padLen (message.length % 64)) = padded at hholds ⊢
  have hmod : padded.length % 64 = 56 := by
    rw [← hpadded, List.length_append, hpadding, padded_mod]
  have hindex : 64 * (padded.length / 64) + 56 = padded.length := by omega
  have hbytes : (lengthBytes (8 * message.length)).length = 8 := by simp [lengthBytes]
  have hdiv : (padded ++ lengthBytes (8 * message.length)).length / 64 =
      padded.length / 64 + 1 := by
    rw [List.length_append, hbytes]
    omega
  rw [Lib.BlockStream.blocks_append reads_compress hdiv, ← hholds.absorbed.state]
  have hlength : ∀ k < 8, block 64 (padded ++ lengthBytes (8 * message.length))
      (padded.length / 64) (56 + k) = BitVec.ofNat 8 ((8 * message.length) >>> (8 * k)) := by
    intro k hk
    have hsub : 64 * (padded.length / 64) + (56 + k) - padded.length = k := by omega
    rw [block, List.getD_append_right _ _ _ _ (by omega), hsub, getD_lengthBytes _ hk]
  refine congrArg Regs.bytes (transform_congr _ fun i hi => ?_)
  by_cases h14 : i = 14
  · rw [if_pos h14, h.i0, h14]
    exact (word_ofNat fun k hk => hlength k (by omega)).symm
  by_cases h15 : i = 15
  · rw [if_neg h14, if_pos h15, h.i1, h15]
    refine (word_ofNat fun k hk => ?_).symm
    have hshift : (8 * message.length) >>> (8 * (4 + k)) =
        (8 * message.length / 2 ^ 32) >>> (8 * k) := by
      rw [Nat.mul_add, Nat.shiftRight_add, show 8 * 4 = 32 from rfl,
        Nat.shiftRight_eq_div_pow _ 32]
    have hbyte := hlength (4 + k) (by omega)
    rwa [hshift, ← Nat.add_assoc] at hbyte
  · rw [if_neg h14, if_neg h15]
    refine word_congr fun k _ hk => ?_
    have hbuffer := hholds.absorbed.buffer k (show k < padded.length % 64 by omega)
    rw [Lib.BlockStream.block_append (show 64 * (padded.length / 64) + k < padded.length by omega)]
    exact hbuffer

/-- **The digest does not depend on how a message is divided**, nor on what was in the context
before: it is the digest of the whole message. -/
theorem run_digest (ctx : Context) {parts : List (List Byte)}
    (hlen : ∀ part ∈ parts, part.length < 2 ^ 32) :
    (parts.foldl Context.update ctx.init).final = digest parts.flatten := by
  have h := (holds_init ctx).foldl hlen
  rw [List.nil_append] at h
  exact h.final

/-- A context which was not used. -/
def sampleContext : Context := ⟨0, 0, ⟨0, 0, 0, 0⟩, fun _ => 0⟩

/-- A message in three parts. -/
def sampleParts : List (List Byte) := [[1, 2], [], List.replicate 100 3]

theorem run_digest_sample :
    (sampleParts.foldl Context.update sampleContext.init).final =
      digest ([1, 2] ++ List.replicate 100 3) := by
  have hlen : ∀ part ∈ sampleParts, part.length < 2 ^ 32 := by decide
  exact run_digest sampleContext hlen

/-- **The hash of two buffers** is the one of their concatenation. -/
theorem hash_eq (ctx : Context) {in1 : List Byte} {in2 : Option (List Byte)} (outLen : ℕ)
    (hin1 : in1.length < 2 ^ 31) (hin2 : (in2.getD []).length < 2 ^ 31) :
    hash ctx in1 in2 outLen = (digest (in1 ++ in2.getD [])).take (min outLen 16) := by
  have hholds : Holds ([] ++ in1) (ctx.init.update in1) := (holds_init ctx).update (by omega)
  rw [List.nil_append] at hholds
  cases in2 with
  | none =>
      rw [Option.getD_none, List.append_nil]
      exact congrArg (List.take _) hholds.final
  | some in2 =>
      have hlen : in2.length < 2 ^ 32 := lt_trans hin2 (by decide)
      exact congrArg (List.take _) (hholds.update hlen).final

end Chrony.Md5
