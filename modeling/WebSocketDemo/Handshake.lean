/-
**The two halves of the upgrade** (`websocket_handler.cpp`): `fetch_http_info` reads the header
block into `header_map_`, `parse_str` writes the 101 response.

`header_map_` is a `std::map<std::string, std::string>`, modelled by its lookup function.  The
buffer `parse_str` writes to is 1024 bytes long and zero-filled; `length_parseStr` shows that the
response takes 129 of them, so that `strcat` is concatenation and `strlen` finds its end.
-/

import WebSocketDemo.Sha1
import WebSocketDemo.Lib.Text
import Mathlib.Logic.Function.Basic

set_option relaxedAutoImplicit false
set_option autoImplicit false

namespace WebSocketDemo

open ByteOrder

/-- `MAGIC_KEY`. -/
def magicKey : Bytes := ascii "258EAFA5-E914-47DA-95CA-C5AB0DC85B11"

/-- `'\r'` and `'\n'`. -/
def cr : UInt8 := 13
def lf : UInt8 := 10

/-- `HEADER_MAP`. -/
abbrev HeaderMap := Bytes → Option Bytes

/-! ### `fetch_http_info` -/

/-- The loop body of `fetch_http_info` on a line that is not the closing `"\r"`: a line that ends
in `\r` and has the form `key: value` is recorded. -/
def fetchHeader (headerMap : HeaderMap) (header : Bytes) : HeaderMap :=
  if header = [] then headerMap
  else if header.getLast? ≠ some cr then headerMap
  else
    let header := header.dropLast
    match Text.find (ascii ": ") header with
    | none => headerMap
    | some e =>
        let key := header.take e
        let value := header.drop (e + 2)
        Function.update headerMap key (some value)

/-- The loop of `fetch_http_info` over the remaining lines. -/
def fetchHeaders (headerMap : HeaderMap) : List Bytes → HeaderMap
  | [] => headerMap
  | header :: rest =>
      if header = [cr] then headerMap else fetchHeaders (fetchHeader headerMap header) rest

/-- `fetch_http_info`: the return value and the updated `header_map_`. -/
def fetchHttpInfo (headerMap : HeaderMap) (rawHeaders : Bytes) : ℤ × HeaderMap :=
  match Text.getlines lf rawHeaders with
  | [] => (-1, headerMap)
  | request :: rest =>
      if request = [] then (-1, headerMap)
      else if request.getLast? = some cr then (0, fetchHeaders headerMap rest)
      else (-1, headerMap)

/-! ### `parse_str` -/

/-- The name `parse_str` looks the key up under. -/
def secWebSocketKey : Bytes := ascii "Sec-WebSocket-Key"

/-- `header_map_["Sec-WebSocket-Key"]`: a missing entry reads as the empty string. -/
def serverKey (headerMap : HeaderMap) : Bytes := (headerMap secWebSocketKey).getD []

/-- The bytes of `message_digest` after the `htonl` of each word. -/
def digestBytes (d : Digest) : Bytes := d.words.flatMap fun w => store32 (swap32 w)

/-- The value of the header `Sec-WebSocket-Accept` for a key.  `SHA1::Result` fails only on inputs
of `2 ^ 61` bytes and more, which `SHA1.hash_isSome` excludes. -/
def acceptValue (key : Bytes) : Bytes :=
  let d := (sha1 (key ++ magicKey)).getD ⟨0, 0, 0, 0, 0⟩
  base64Encode (digestBytes d)

/-- `parse_str`: the lookup, which enters a missing key into the map, and the response. -/
def parseStr (headerMap : HeaderMap) : HeaderMap × Bytes :=
  let key := serverKey headerMap
  (Function.update headerMap secWebSocketKey (some key),
    ascii "HTTP/1.1 101 Switching Protocols\r\n" ++ ascii "Connection: upgrade\r\n" ++
      ascii "Sec-WebSocket-Accept: " ++ (acceptValue key ++ ascii "\r\n") ++
      ascii "Upgrade: websocket\r\n\r\n")

/-- Five words are twenty bytes. -/
theorem length_digestBytes (d : Digest) : (digestBytes d).length = 20 := by
  simp [digestBytes, Digest.words, ByteOrder.length_store32]

theorem length_acceptValue (key : Bytes) : (acceptValue key).length = 28 := by
  simp [acceptValue, length_base64Encode, length_digestBytes]

/-- The response has always the same length. -/
theorem length_parseStr (headerMap : HeaderMap) : (parseStr headerMap).2.length = 129 := by
  have h₁ : (ascii "HTTP/1.1 101 Switching Protocols\r\n").length = 34 := by decide
  have h₂ : (ascii "Connection: upgrade\r\n").length = 21 := by decide
  have h₃ : (ascii "Sec-WebSocket-Accept: ").length = 22 := by decide
  have h₄ : (ascii "Upgrade: websocket\r\n\r\n").length = 22 := by decide
  have h₅ : (ascii "\r\n").length = 2 := by decide
  simp [parseStr, length_acceptValue, h₁, h₂, h₃, h₄, h₅]

end WebSocketDemo
