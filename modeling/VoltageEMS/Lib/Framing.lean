import VoltageEMS.Lib.Bytes

/-!
# Messages of one size on a byte stream

A sender appends the encodings of messages to a stream, a receiver cuts it into blocks of the
message size and decodes each.

* `Written` — a stream made of whole encodings and at most a part of one more.
* `Written.frames_prefix` — **no frame is mixed**: whatever the receiver has seen of such a stream
  decodes to a prefix of the messages.
-/

namespace VoltageEMS.Lib

open List

/-- Messages encoded into `size` bytes each. -/
structure Codec (μ : Type) where
  size : Nat
  size_pos : 0 < size
  encode : μ → List UInt8
  decode : List UInt8 → μ
  length_encode : ∀ m, (encode m).length = size
  decode_encode : ∀ m, decode (encode m) = m

namespace Codec

variable {μ : Type} (c : Codec μ)

/-- The first `n` blocks, decoded. -/
def blocks : Nat → List UInt8 → List μ
  | 0, _ => []
  | n + 1, buf => c.decode (buf.take c.size) :: blocks n (buf.drop c.size)

/-- Every complete block of a buffer, decoded. -/
def frames (buf : List UInt8) : List μ := c.blocks (buf.length / c.size) buf

theorem frames_of_short {buf : List UInt8} (h : buf.length < c.size) : c.frames buf = [] := by
  rw [frames, Nat.div_eq_of_lt h, blocks]

theorem frames_encode_append (m : μ) (rest : List UInt8) :
    c.frames (c.encode m ++ rest) = m :: c.frames rest := by
  have hlen := c.length_encode m
  have hcount : (c.encode m ++ rest).length / c.size = rest.length / c.size + 1 := by
    rw [length_append, hlen, Nat.add_comm, Nat.add_div_right _ c.size_pos]
  rw [frames, hcount, blocks, take_left' hlen, drop_left' hlen, c.decode_encode, frames]

/-- The messages in full, then less than one more. -/
def Written (ms : List μ) (buf : List UInt8) : Prop :=
  ∃ part : List UInt8, part.length < c.size ∧ buf = ms.flatMap c.encode ++ part

variable {c}

theorem Written.of_part {ms : List μ} {part : List UInt8} (h : part.length < c.size) :
    c.Written ms (ms.flatMap c.encode ++ part) := ⟨part, h, rfl⟩

theorem Written.frames_prefix {ms : List μ} {buf received : List UInt8} (h : c.Written ms buf)
    (hreceived : received <+: buf) : c.frames received <+: ms := by
  obtain ⟨part, hpart, rfl⟩ := h
  induction ms generalizing received with
  | nil =>
    have hle := hreceived.length_le
    simp only [flatMap_nil, nil_append] at hle
    have hframes : c.frames received = [] := c.frames_of_short (by omega)
    exact hframes ▸ nil_prefix
  | cons m ms ih =>
    rw [flatMap_cons, append_assoc] at hreceived
    by_cases hshort : received.length < c.size
    · rw [c.frames_of_short hshort]
      exact nil_prefix
    -- the first block is there in full, so it is the encoding of `m`
    have hfirst : c.encode m <+: received :=
      prefix_of_prefix_length_le (prefix_append _ _) hreceived
        (by rw [c.length_encode]; omega)
    obtain ⟨rest, rfl⟩ := hfirst
    rw [c.frames_encode_append, cons_prefix_cons]
    exact ⟨rfl, ih ((prefix_append_right_inj _).mp hreceived)⟩

theorem flatMap_frames_sublist {sent received : List (List UInt8)} {ms : List (List μ)}
    (hsent : List.Forall₂ c.Written ms sent) (hreceived : List.Forall₂ (· <+: ·) received sent) :
    (received.flatMap c.frames).Sublist ms.flatten := by
  induction hsent generalizing received with
  | nil =>
    cases hreceived
    exact .slnil
  | cons hbuf _ ih =>
    cases hreceived with
    | cons hhead htail =>
      rw [flatMap_cons, flatten_cons]
      exact (hbuf.frames_prefix hhead).sublist.append (ih htail)

end Codec

end VoltageEMS.Lib
