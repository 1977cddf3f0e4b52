import AtomProbe.Digest.Sha256
import Mathlib.Data.Nat.Digits.Defs

/-!
# `AtomProbe.Proofs.Digest`: reading in pieces

A file is read piece by piece, and the pieces need not end where the
blocks of the digest do. What is left of a piece waits for the next one.
All pieces go through the same buffer, where a short one leaves bytes of
the one before it behind.

* `Sha256.IsDigest`: what FIPS 180-4 says of the digest of a whole
  message, and `Sha256.isDigest_iff`: there is one, and `digest` gives it.
* `Sha256.finish_foldl_update`: the digest of pieces is that of the
  message that they make up.
* `takeReads_append`: the bytes that are digested are those that were
  read.
* `ofContent_eq`: so the checksum of a file is the SHA-256 of its bytes.
* `ofReads_follows_standard`: however the reads of a file split it, the
  standard's digest is shown in hexadecimal.
-/

set_option autoImplicit false

namespace AtomProbe.Digest

/-! ### Pieces of a list -/

/-- The pieces of a list make it up. -/
theorem flatten_pieces {size : Nat} (hsize : size ≠ 0) (bytes : List UInt8) :
    (pieces size bytes).flatten = bytes := by
  induction bytes using pieces.induct size with
  | case1 bytes hdone =>
    rw [pieces, dif_pos hdone, hdone.resolve_left hsize, List.flatten_nil]
  | case2 bytes hmore ih =>
    rw [pieces, dif_neg hmore, List.flatten_cons, ih, List.take_append_drop]

/-- No piece is empty, and none is longer than it may be. -/
theorem bounds_of_mem_pieces {size : Nat} {bytes piece : List UInt8}
    (h : piece ∈ pieces size bytes) : piece ≠ [] ∧ piece.length ≤ size := by
  induction bytes using pieces.induct size with
  | case1 bytes hdone =>
    rw [pieces, dif_pos hdone] at h
    cases h
  | case2 bytes hmore ih =>
    rw [pieces, dif_neg hmore] at h
    rcases List.mem_cons.1 h with rfl | h
    · rw [not_or] at hmore
      refine ⟨fun hnil => ?_, List.length_take_le size bytes⟩
      rcases List.take_eq_nil_iff.1 hnil with hzero | hnil
      · exact hmore.1 hzero
      · exact hmore.2 hnil
    · exact ih h

/-- A list of whole blocks is cut into them. -/
theorem length_of_mem_pieces {size : Nat} {bytes piece : List UInt8}
    (hwhole : bytes.length % size = 0) (h : piece ∈ pieces size bytes) : piece.length = size := by
  induction bytes using pieces.induct size with
  | case1 bytes hdone =>
    rw [pieces, dif_pos hdone] at h
    cases h
  | case2 bytes hmore ih =>
    rw [not_or] at hmore
    -- a rest of whole blocks is empty, or holds another one
    have hle : size ≤ bytes.length := by
      by_contra hlt
      rw [Nat.mod_eq_of_lt (by omega)] at hwhole
      exact hmore.2 (List.length_eq_zero_iff.1 hwhole)
    rw [pieces, dif_neg (not_or.2 hmore)] at h
    rcases List.mem_cons.1 h with rfl | h
    · rw [List.length_take, Nat.min_eq_left hle]
    · refine ih ?_ h
      rw [List.length_drop, ← Nat.mod_eq_sub_mod hle]
      exact hwhole

namespace Sha256

/-! ### The standard -/

/-- The number that bytes stand for, the most significant of them
first. -/
def bigEndian (bytes : List UInt8) : Nat := Nat.ofDigits 256 (bytes.reverse.map UInt8.toNat)

/-- What stands behind a message of `size` bytes, as FIPS 180-4 pads it: a
one bit, the fewest zeros that fill up a block, and in eight bytes the
number of bits of the message. -/
def IsPadding (size : Nat) (bytes : List UInt8) : Prop :=
  ∃ (zeros : Nat) (field : List UInt8), bytes = 0x80 :: (List.replicate zeros 0 ++ field) ∧
    zeros < 64 ∧ (size + bytes.length) % 64 = 0 ∧
    field.length = 8 ∧ bigEndian field = 8 * size % 2 ^ 64

/-- What FIPS 180-4 says of the digest of a message: the padded message is
parsed into blocks of 64 bytes, and they are compressed in order, from the
initial chaining value on. -/
def IsDigest (message output : List UInt8) : Prop :=
  ∃ (behind : List UInt8) (blocks : List (List UInt8)),
    IsPadding message.length behind ∧ blocks.flatten = message ++ behind ∧
    (∀ block ∈ blocks, block.length = 64) ∧
    output = (blocks.foldl compress State.initial).bytes

theorem bigEndian_injective {xs ys : List UInt8} (hlength : xs.length = ys.length)
    (h : bigEndian xs = bigEndian ys) : xs = ys := by
  have hdigits (bytes : List UInt8) : ∀ n ∈ bytes.reverse.map UInt8.toNat, n < 256 := by
    intro n hn
    obtain ⟨b, -, rfl⟩ := List.mem_map.1 hn
    exact b.toNat_lt
  have hmap := Nat.ofDigits_inj_of_len_eq (by decide) (by simp [hlength]) (hdigits xs)
    (hdigits ys) h
  exact List.reverse_inj.1 ((List.map_inj_right fun _ _ => UInt8.toNat_inj.1).1 hmap)

theorem bigEndian_lengthBytes (size : Nat) : bigEndian (lengthBytes size) = 8 * size % 2 ^ 64 := by
  have hrange : List.range 8 = [0, 1, 2, 3, 4, 5, 6, 7] := rfl
  simp only [bigEndian, lengthBytes, hrange, List.map_cons, List.map_nil, List.reverse_cons,
    List.reverse_nil, List.nil_append, List.cons_append, Nat.ofDigits_cons, Nat.ofDigits_nil,
    UInt8.toNat_ofNat', Nat.pow_eq]
  omega

/-- There is one padding for each size. -/
theorem isPadding_iff {size : Nat} {bytes : List UInt8} :
    IsPadding size bytes ↔ bytes = padding size := by
  have hfield : (lengthBytes size).length = 8 := by
    rw [lengthBytes, List.length_map, List.length_range]
  constructor
  · rintro ⟨zeros, field, rfl, hzeros, hwhole, hlength, hvalue⟩
    have hcount : zeros = (119 - size % 64) % 64 := by
      rw [List.length_cons, List.length_append, List.length_replicate, hlength] at hwhole
      omega
    have hsize := bigEndian_injective (hlength.trans hfield.symm)
      (hvalue.trans (bigEndian_lengthBytes size).symm)
    rw [padding, hcount, hsize, List.cons_append]
  · rintro rfl
    refine ⟨_, _, List.cons_append, Nat.mod_lt _ (by decide), ?_, hfield,
      bigEndian_lengthBytes size⟩
    rw [padding, List.length_append, List.length_cons, List.length_replicate, hfield]
    omega

/-! ### Blocks -/

/-- To absorb a message and then another is to absorb both at once. What
is left of the first comes before the second. Induction on the blocks of
the first message. -/
theorem absorb_append (s : State) (xs ys : List UInt8) :
    absorb s (xs ++ ys) = absorb (absorb s xs).1 ((absorb s xs).2 ++ ys) := by
  induction s, xs using absorb.induct with
  | case1 s xs hblock ih =>
    have hlength : 64 ≤ xs.length := by
      rw [List.length_take] at hblock
      omega
    have htake : (xs ++ ys).take 64 = xs.take 64 := List.take_append_of_le_length hlength
    have hdrop : (xs ++ ys).drop 64 = xs.drop 64 ++ ys := List.drop_append_of_le_length hlength
    rw [absorb.eq_def s (xs ++ ys), htake, hdrop, dif_pos hblock, ih, absorb.eq_def s xs,
      dif_pos hblock]
  | case2 s xs hblock => rw [absorb.eq_def s xs, dif_neg hblock]

/-- Whole blocks are compressed in order, and nothing is left. -/
theorem absorb_flatten (s : State) {blocks : List (List UInt8)}
    (hblocks : ∀ block ∈ blocks, block.length = 64) :
    absorb s blocks.flatten = (blocks.foldl compress s, []) := by
  induction blocks generalizing s with
  | nil =>
    rw [List.flatten_nil, absorb, dif_neg (by decide), List.foldl_nil]
  | cons block blocks ih =>
    rw [List.forall_mem_cons] at hblocks
    have htake : (block ++ blocks.flatten).take 64 = block := List.take_left' hblocks.1
    have hdrop : (block ++ blocks.flatten).drop 64 = blocks.flatten := List.drop_left' hblocks.1
    rw [List.flatten_cons, absorb, htake, hdrop, dif_pos hblocks.1.ge, ih _ hblocks.2,
      List.foldl_cons]

/-- A message has one digest by the standard. -/
theorem isDigest_iff {message output : List UInt8} :
    IsDigest message output ↔ output = digest message := by
  constructor
  · rintro ⟨behind, blocks, hpadding, hflatten, hblocks, rfl⟩
    obtain rfl := isPadding_iff.1 hpadding
    rw [digest, ← hflatten, absorb_flatten _ hblocks]
  · rintro rfl
    have hpadding : IsPadding message.length (padding message.length) := isPadding_iff.2 rfl
    have hflatten := flatten_pieces (by decide : 64 ≠ 0) (message ++ padding message.length)
    have hblocks : ∀ block ∈ pieces 64 (message ++ padding message.length), block.length = 64 := by
      refine fun block hblock => length_of_mem_pieces ?_ hblock
      obtain ⟨-, -, -, -, hwhole, -⟩ := hpadding
      rw [List.length_append]
      exact hwhole
    refine ⟨_, _, hpadding, hflatten, hblocks, ?_⟩
    rw [digest, ← hflatten, absorb_flatten _ hblocks, hflatten]

theorem length_digest (message : List UInt8) : (digest message).length = 32 := rfl

/-! ### Pieces of a message -/

/-- The digest of pieces is that of all their bytes, whatever came before
them. Induction on the pieces. -/
theorem finish_foldl_update (h : Hasher) (pieces : List (List UInt8)) :
    (pieces.foldl Hasher.update h).finish =
      (absorb h.state (h.pending ++ (pieces.flatten ++
        padding (h.size + pieces.flatten.length)))).1.bytes := by
  induction pieces generalizing h with
  | nil => rfl
  | cons piece pieces ih =>
    have hlength : h.size + piece.length + pieces.flatten.length =
        h.size + (piece :: pieces).flatten.length := by
      rw [List.flatten_cons, List.length_append, Nat.add_assoc]
    rw [List.foldl_cons, ih, Hasher.update]
    dsimp only
    rw [hlength, ← absorb_append, List.flatten_cons, List.append_assoc, List.append_assoc]

theorem finish_foldl_update_start (pieces : List (List UInt8)) :
    (pieces.foldl Hasher.update .start).finish = digest pieces.flatten := by
  rw [finish_foldl_update, digest]
  simp only [Hasher.start, List.nil_append, Nat.zero_add]

end Sha256

/-! ### Reads through a buffer -/

/-- The bytes of a read stand at the front of the buffer, which keeps its
length. -/
theorem take_refill {buffer piece : List UInt8} (h : piece.length ≤ buffer.length) :
    (refill buffer piece).take piece.length = piece ∧
      (refill buffer piece).length = buffer.length := by
  rw [refill, List.take_of_length_le h]
  refine ⟨List.take_left, ?_⟩
  rw [List.length_append, List.length_drop]
  omega

/-- Each read goes into the digest as it is, and nothing behind the first
read without bytes does. Induction on the reads; the buffer keeps its
length, and what is in it does not matter. -/
theorem takeReads_append (h : Sha256.Hasher) {buffer : List UInt8} {reads rest : List (List UInt8)}
    (hreads : ∀ piece ∈ reads, piece ≠ [] ∧ piece.length ≤ buffer.length)
    (hrest : ∀ piece ∈ rest.head?, piece = []) :
    takeReads h buffer (reads ++ rest) = reads.foldl Sha256.Hasher.update h := by
  induction reads generalizing h buffer with
  | nil =>
    cases rest with
    | nil => rfl
    | cons piece rest =>
      obtain rfl := hrest piece rfl
      rfl
  | cons piece reads ih =>
    rw [List.forall_mem_cons] at hreads
    obtain ⟨⟨hne, hle⟩, hreads⟩ := hreads
    obtain ⟨htake, hlength⟩ := take_refill hle
    rw [List.cons_append, takeReads, if_neg (by simpa using hne), List.foldl_cons]
    dsimp only
    rw [htake]
    exact ih _ fun p hp => ⟨(hreads p hp).1, (hreads p hp).2.trans_eq hlength.symm⟩

/-- The digest of a file from its reads is that of its bytes. -/
theorem ofReads_append {reads rest : List (List UInt8)}
    (hreads : ∀ piece ∈ reads, piece ≠ [] ∧ piece.length ≤ pieceSize)
    (hrest : ∀ piece ∈ rest.head?, piece = []) :
    ofReads (reads ++ rest) = hex (Sha256.digest reads.flatten) := by
  rw [ofReads, takeReads_append _ (by simpa using hreads) hrest,
    Sha256.finish_foldl_update_start]

/-- The checksum of a file is the digest of its bytes. -/
theorem ofContent_eq (content : ByteArray) :
    ofContent content = hex (Sha256.digest content.toList) := by
  have hreads : ∀ piece ∈ pieces pieceSize content.toList, piece ≠ [] ∧ piece.length ≤ pieceSize :=
    fun _ => bounds_of_mem_pieces
  rw [ofContent, ← List.append_nil (pieces pieceSize content.toList),
    ofReads_append hreads (by simp), flatten_pieces (by decide)]

/-! ### Hexadecimal digits -/

/-- The digits of a lowercase hexadecimal number. -/
def hexDigits : List Char := "0123456789abcdef".toList

theorem toList_hex (bytes : List UInt8) :
    (hex bytes).toList =
      bytes.flatMap fun b => [(b.toNat / 16).digitChar, (b.toNat % 16).digitChar] := by
  rw [hex, String.toList_ofList]
  refine congrArg (List.flatMap · bytes) (funext fun b => ?_)
  have hlow : b.toNat % 16 < 16 := Nat.mod_lt _ (by decide)
  have hhigh : b.toNat / 16 < 16 := Nat.div_lt_of_lt_mul b.toNat_lt
  dsimp only
  rw [Nat.toDigits_of_lt_base hlow, Nat.toDigits_of_lt_base hhigh]
  rfl

theorem length_hex (bytes : List UInt8) : (hex bytes).length = 2 * bytes.length := by
  rw [← String.length_toList, toList_hex]
  simp only [List.length_flatMap, List.length_cons, List.length_nil, List.map_const',
    List.sum_replicate_nat, Nat.mul_comm]

theorem mem_hexDigits_of_mem_hex {bytes : List UInt8} {c : Char} (h : c ∈ (hex bytes).toList) :
    c ∈ hexDigits := by
  have hdigits : ∀ n < 16, n.digitChar ∈ hexDigits := by decide
  rw [toList_hex] at h
  obtain ⟨b, -, hc⟩ := List.mem_flatMap.1 h
  have hlow : b.toNat % 16 < 16 := Nat.mod_lt _ (by decide)
  have hhigh : b.toNat / 16 < 16 := Nat.div_lt_of_lt_mul b.toNat_lt
  rcases List.mem_cons.1 hc with rfl | hc
  · exact hdigits _ hhigh
  · exact List.mem_singleton.1 hc ▸ hdigits _ hlow

/-- However the reads of a file split it, up to the first that gives no
bytes, the outcome is the same: the digest that the standard gives for all
bytes of the file, two lowercase hexadecimal digits for each of its 32
bytes. -/
theorem ofReads_follows_standard {content : ByteArray} {reads : List (List UInt8)}
    (later : List (List UInt8))
    (hcontent : reads.flatten = content.toList)
    (hreads : ∀ piece ∈ reads, piece ≠ [] ∧ piece.length ≤ pieceSize) :
    ofReads (reads ++ [] :: later) = ofContent content ∧
      ∃ output, (∀ other, Sha256.IsDigest content.toList other ↔ other = output) ∧
        (ofContent content).toList =
          output.flatMap (fun b => [(b.toNat / 16).digitChar, (b.toNat % 16).digitChar]) ∧
        (ofContent content).length = 64 ∧
        ∀ c ∈ (ofContent content).toList, c ∈ hexDigits := by
  have hequal : ofReads (reads ++ [] :: later) = ofContent content := by
    rw [ofReads_append hreads (by simp), hcontent, ofContent_eq]
  refine ⟨hequal, Sha256.digest content.toList, fun other => Sha256.isDigest_iff, ?_⟩
  rw [ofContent_eq]
  refine ⟨toList_hex _, ?_, fun c hc => mem_hexDigits_of_mem_hex hc⟩
  rw [length_hex, Sha256.length_digest]

/-- Three bytes in two reads. -/
theorem ofReads_follows_standard_abc :
    ofReads [[0x61], [0x62, 0x63], []] =
        "ba7816bf8f01cfea414140de5dae2223b00361a396177a9cb410ff61f20015ad" ∧
      ofReads [[0x61], [0x62, 0x63], []] = ofContent "abc".toUTF8 := by
  have hcontent : [[0x61], [0x62, 0x63]].flatten = "abc".toUTF8.toList := by decide +kernel
  exact ⟨by decide +kernel, (ofReads_follows_standard [] hcontent (by decide)).1⟩

end AtomProbe.Digest
