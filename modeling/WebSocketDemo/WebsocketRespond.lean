/-
**The frame encoder** (`websocket_respond.h`, `websocket_respond.cpp`).

`packData` renders one server frame.  Its error exits are the null message and a failing `malloc`;
the allocation is assumed to succeed, so the null message is the one that remains.  The members
`fin_`, `opcode_` and `mask_` of the class are never read and are left out.
-/

import WebSocketDemo.Lib.ByteOrder

set_option relaxedAutoImplicit false
set_option autoImplicit false

namespace WebSocketDemo

open ByteOrder

namespace WebsocketRespond

/-- `hdr` of `pack_data`: the size of the header. -/
def hdr (msgLen : ℕ) : ℕ := if msgLen < 126 then 2 else if msgLen ≤ 0xFFFF then 4 else 10

/-- `total` of `pack_data`, the value of `*out_len`. -/
def total (msgLen : ℕ) : ℕ := (hdr msgLen + msgLen) % 2 ^ 64

/-- `pack_data`: the frame carrying the first `msgLen` bytes of `message`, or `none` for the
return value `-1`. -/
def packData (message : Option Bytes) (msgLen : ℕ) (fin opcode mask : UInt8) : Option Bytes :=
  match message with
  | none => none
  | some message =>
      let b₀ := (fin <<< 7) ||| (opcode &&& 0x0F)
      let b₁ := mask <<< 7
      if msgLen < 126 then
        some ([b₀, b₁ ||| UInt8.ofNat msgLen] ++ message.take msgLen)
      else if msgLen ≤ 0xFFFF then
        let be := swap16 (UInt16.ofNat msgLen)
        some ([b₀, b₁ ||| 126] ++ store16 be ++ message.take msgLen)
      else
        let v := UInt64.ofNat msgLen
        let ext := (List.range 8).map fun i =>
          ((v >>> UInt64.ofNat (56 - i * 8)) &&& (0xFF : UInt64)).toUInt8
        some ([b₀, b₁ ||| 127] ++ ext ++ message.take msgLen)

end WebsocketRespond

end WebSocketDemo
