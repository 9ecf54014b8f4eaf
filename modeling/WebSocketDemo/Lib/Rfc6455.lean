/-
**The WebSocket wire format** (RFC 6455, sections 5.2 to 5.6), as the protocol defines it.

This module is about the protocol and not about any implementation: what a frame is, which bytes it
is on the wire, which frames an endpoint may send, and how the frames of a message are put together
again.

Main definitions:

* `Rfc6455.WireFrame`, `Rfc6455.WireFrame.encode` — a frame and its bytes, the length always in the
  shortest of the three forms;
* `Rfc6455.WireFrame.FromServer`, `Rfc6455.WireFrame.FromClient` — what the two sides may send with
  no extension negotiated;
* `Rfc6455.reassemble` — the messages a sequence of frames carries.

Main results:

* `Rfc6455.mask_mask` — masking twice is the identity;
* `Rfc6455.fragments_of_reassemble` — **which frames carry one text message**.
-/

import WebSocketDemo.Lib.ByteOrder
import Mathlib.Data.Vector.Basic

set_option relaxedAutoImplicit false
set_option autoImplicit false

namespace Rfc6455

open ByteOrder

/-! ### Masking -/

instance neZero_four : NeZero 4 := ⟨Nat.succ_ne_zero 3⟩
instance neZero_eight : NeZero 8 := ⟨Nat.succ_ne_zero 7⟩
instance neZero_sixteen : NeZero 16 := ⟨Nat.succ_ne_zero 15⟩

/-- A masking key. -/
abbrev Key := Vector UInt8 4

/-- Masking: byte `i` of the payload is combined with byte `i mod 4` of the key. -/
def mask (key : Key) (b : Bytes) : Bytes := b.mapIdx fun i x => x ^^^ key.get (Fin.ofNat 4 i)

@[simp] theorem length_mask (key : Key) (b : Bytes) : (mask key b).length = b.length := by
  simp [mask]

/-- **Masking twice is the identity.** -/
@[simp] theorem mask_mask (key : Key) (b : Bytes) : mask key (mask key b) = b := by
  refine List.ext_getElem (by simp) ?_
  intro i h₁ h₂
  simp only [mask, List.getElem_mapIdx]
  rw [UInt8.xor_assoc, UInt8.xor_self, UInt8.xor_zero]

/-- The fields of a frame. -/
structure WireFrame where
  fin : Bool
  rsv : Fin 8
  opcode : Fin 16
  key : Option Key
  payload : Bytes
  deriving DecidableEq

/-- The opcodes with a meaning of their own here. -/
def opContinuation : Fin 16 := 0
def opText : Fin 16 := 1
def opBinary : Fin 16 := 2
def opClose : Fin 16 := 8
def opPing : Fin 16 := 9
def opPong : Fin 16 := 10

namespace WireFrame

/-- Control frames have the opcodes from 8 on. -/
def IsControl (f : WireFrame) : Prop := 8 ≤ f.opcode.val

instance (f : WireFrame) : Decidable f.IsControl := inferInstanceAs (Decidable (8 ≤ f.opcode.val))

/-- The seven length bits of the second byte. -/
def len7 (n : ℕ) : ℕ := if n < 126 then n else if n < 65536 then 126 else 127

/-- The extended payload length: nothing, 16 bits or 64 bits. -/
def extendedLength (n : ℕ) : Bytes :=
  if n < 126 then [] else if n < 65536 then bigEndian 2 n else bigEndian 8 n

/-- The first byte: FIN, RSV and the opcode. -/
def byte0 (f : WireFrame) : UInt8 :=
  UInt8.ofNat (128 * f.fin.toNat + 16 * f.rsv.val + f.opcode.val)

/-- The second byte: MASK and the length bits. -/
def byte1 (f : WireFrame) : UInt8 :=
  UInt8.ofNat (128 * f.key.isSome.toNat + len7 f.payload.length)

/-- The masking key on the wire. -/
def keyBytes (f : WireFrame) : Bytes :=
  match f.key with
  | none => []
  | some key => key.toList

/-- The payload on the wire. -/
def maskedPayload (f : WireFrame) : Bytes :=
  match f.key with
  | none => f.payload
  | some key => mask key f.payload

/-- **The bytes of a frame.** -/
def encode (f : WireFrame) : Bytes :=
  f.byte0 :: f.byte1 ::
    (extendedLength f.payload.length ++ f.keyBytes ++ f.maskedPayload)

@[simp] theorem length_maskedPayload (f : WireFrame) :
    f.maskedPayload.length = f.payload.length := by
  cases h : f.key with
  | none => simp [maskedPayload, h]
  | some key => simp [maskedPayload, h]

theorem length_encode (f : WireFrame) : f.encode.length =
    2 + (extendedLength f.payload.length).length + f.keyBytes.length + f.payload.length := by
  simp [encode]
  omega

/-- What a server may send with no extension negotiated: the reserved bits are zero, the frame is
not masked and not longer than a 63-bit length can say, and a control frame is not fragmented and
carries at most 125 bytes. -/
structure FromServer (f : WireFrame) : Prop where
  rsv_eq : f.rsv = 0
  key_eq : f.key = none
  length_lt : f.payload.length < 2 ^ 63
  control : f.IsControl → f.fin = true ∧ f.payload.length ≤ 125

/-- What a client may send with no extension negotiated: the same, but the frame is masked, and its
opcode is none of the reserved ones. -/
structure FromClient (f : WireFrame) : Prop where
  rsv_eq : f.rsv = 0
  opcode_mem : f.opcode ∈ [opContinuation, opText, opBinary, opClose, opPing, opPong]
  masked : f.key.isSome = true
  length_lt : f.payload.length < 2 ^ 63
  control : f.IsControl → f.fin = true ∧ f.payload.length ≤ 125

end WireFrame

/-! ### Messages -/

/-- A message, with the opcode of its first frame. -/
structure Message where
  opcode : Fin 16
  payload : Bytes
  deriving DecidableEq

/-- The messages carried by a sequence of frames, given the message under way, or `none` when the
sequence breaks the fragmentation rules or ends inside a message.  Control frames may stand between
the fragments of a message and are no part of it. -/
def reassemble : Option Message → List WireFrame → Option (List Message)
  | none, [] => some []
  | some _, [] => none
  | none, f :: fs =>
      if f.IsControl then reassemble none fs
      else if f.opcode = opContinuation then none
      else if f.fin then (reassemble none fs).map (⟨f.opcode, f.payload⟩ :: ·)
      else reassemble (some ⟨f.opcode, f.payload⟩) fs
  | some m, f :: fs =>
      if f.IsControl then reassemble (some m) fs
      else if f.opcode ≠ opContinuation then none
      else if f.fin then (reassemble none fs).map (⟨m.opcode, m.payload ++ f.payload⟩ :: ·)
      else reassemble (some ⟨m.opcode, m.payload ++ f.payload⟩) fs

/-- The frames of a sequence that have a given opcode. -/
def withOpcode (op : Fin 16) (fs : List WireFrame) : List WireFrame :=
  fs.filter fun f => decide (f.opcode = op)

section Reassembly

variable {f : WireFrame} {fs : List WireFrame} {m m' : Message}

theorem withOpcode_cons_of_eq {op : Fin 16} (h : f.opcode = op) :
    withOpcode op (f :: fs) = f :: withOpcode op fs := by
  simp [withOpcode, h]

theorem withOpcode_cons_of_ne {op : Fin 16} (h : f.opcode ≠ op) :
    withOpcode op (f :: fs) = withOpcode op fs := by
  simp [withOpcode, h]

/-- A control frame is neither a text frame nor a continuation. -/
theorem WireFrame.IsControl.ne (h : f.IsControl) :
    f.opcode ≠ opText ∧ f.opcode ≠ opContinuation := by
  constructor
  · intro he
    rw [WireFrame.IsControl, he] at h
    exact absurd h (by decide)
  · intro he
    rw [WireFrame.IsControl, he] at h
    exact absurd h (by decide)

/-- Frames that are messages of their own. -/
theorem reassemble_of_final (h : ∀ f ∈ fs, ¬ f.IsControl ∧ f.opcode ≠ opContinuation ∧
    f.fin = true) :
    reassemble none fs = some (fs.map fun f => ⟨f.opcode, f.payload⟩) := by
  induction fs with
  | nil => rfl
  | cons f fs ih =>
      obtain ⟨hctl, hcont, hfin⟩ := h f List.mem_cons_self
      rw [reassemble, if_neg hctl, if_neg hcont, if_pos hfin,
        ih fun f' hf' => h f' (List.mem_cons_of_mem _ hf')]
      rfl

/-- A message under way is delivered, or the sequence fails. -/
theorem reassemble_some_ne_nil : reassemble (some m) fs ≠ some [] := by
  induction fs generalizing m with
  | nil => simp [reassemble]
  | cons f fs ih =>
      rw [reassemble]
      split_ifs
      · exact ih
      · simp
      · simp
      · exact ih

/-- A sequence that carries no message consists of control frames. -/
theorem withOpcode_of_reassemble_nil (h : reassemble none fs = some []) :
    withOpcode opText fs = [] ∧ withOpcode opContinuation fs = [] := by
  induction fs with
  | nil => exact ⟨rfl, rfl⟩
  | cons f fs ih =>
      rw [reassemble] at h
      split_ifs at h with hctl hcont hfin
      · rw [withOpcode_cons_of_ne hctl.ne.1, withOpcode_cons_of_ne hctl.ne.2]
        exact ih h
      · simp at h
      · exact absurd h reassemble_some_ne_nil

/-- What follows the first frame of the last message: continuations, and control frames. -/
theorem continuations_of_reassemble (h : reassemble (some m) fs = some [m']) :
    m'.opcode = m.opcode ∧ withOpcode opText fs = [] ∧
      m'.payload = m.payload ++ (withOpcode opContinuation fs).flatMap WireFrame.payload := by
  induction fs generalizing m with
  | nil => simp [reassemble] at h
  | cons f fs ih =>
      rw [reassemble] at h
      split_ifs at h with hctl hcont hfin
      · rw [withOpcode_cons_of_ne hctl.ne.1, withOpcode_cons_of_ne hctl.ne.2]
        exact ih h
      · have hcont' : f.opcode = opContinuation := not_not.1 hcont
        obtain ⟨ms, hms, hcons⟩ := Option.map_eq_some_iff.1 h
        injection hcons with hm hnil
        subst hnil
        obtain ⟨htext, hnone⟩ := withOpcode_of_reassemble_nil hms
        rw [withOpcode_cons_of_ne (by rw [hcont']; decide), withOpcode_cons_of_eq hcont', htext,
          hnone, ← hm]
        simp
      · have hcont' : f.opcode = opContinuation := not_not.1 hcont
        obtain ⟨hop, htext, hpayload⟩ := ih h
        rw [withOpcode_cons_of_ne (by rw [hcont']; decide), withOpcode_cons_of_eq hcont']
        refine ⟨hop, htext, ?_⟩
        rw [hpayload, List.flatMap_cons, List.append_assoc]

/-- **The frames of one text message**: a single text frame, and continuations whose payloads follow
its own. -/
theorem fragments_of_reassemble (h : reassemble none fs = some [m]) (hm : m.opcode = opText) :
    ∃ f, withOpcode opText fs = [f] ∧
      m.payload = f.payload ++ (withOpcode opContinuation fs).flatMap WireFrame.payload := by
  induction fs with
  | nil => simp [reassemble] at h
  | cons f fs ih =>
      rw [reassemble] at h
      split_ifs at h with hctl hcont hfin
      · rw [withOpcode_cons_of_ne hctl.ne.1, withOpcode_cons_of_ne hctl.ne.2]
        exact ih h
      · obtain ⟨ms, hms, hcons⟩ := Option.map_eq_some_iff.1 h
        injection hcons with hm' hnil
        subst hnil hm'
        obtain ⟨htext, hnone⟩ := withOpcode_of_reassemble_nil hms
        refine ⟨f, ?_, ?_⟩
        · rw [withOpcode_cons_of_eq hm, htext]
        · rw [withOpcode_cons_of_ne hcont, hnone]
          simp
      · obtain ⟨hop, htext, hpayload⟩ := continuations_of_reassemble h
        refine ⟨f, ?_, ?_⟩
        · rw [withOpcode_cons_of_eq (hop.symm.trans hm), htext]
        · rw [withOpcode_cons_of_ne hcont, hpayload]

end Reassembly

end Rfc6455
