/-
**The HTTP client** (`HttpClient.h`, `HttpClient.cpp`).

A URL is cut into authority, path and query, a request is written, the name of the host is resolved,
and one answer is read from the socket, out of which the body is taken.  What the environment does
is given by a `Network`; what is called, and with what, is recorded.  `getHttpRequestEx` and
`postHttpRequestEx` are two copies of one function that differ in the request they write.

Sizes are natural numbers; a difference of sizes that would be negative wraps, and so does a
negative `int32_t` that is compared with a size.  Positions that were found lie within the text, so
that `substr` does not throw on them.

Main definitions:

* `CHttpclient.parseHttpParameter`, `CHttpclient.getHttpData`;
* `Network`, `NetCall`, `CHttpclient.requestEx` — a request and what it calls;
* `CHttpclient.getHttpRequestEx`, `CHttpclient.postHttpRequestEx`.
-/

import WebSocketDemo.Base64
import WebSocketDemo.Lib.Text
import WebSocketDemo.StringCommon
import WebSocketDemo.TcpSocket

set_option relaxedAutoImplicit false
set_option autoImplicit false

namespace WebSocketDemo

/-- `a - b` for two values of type `size_t`. -/
def sizeSub (a b : ℕ) : ℕ := if b ≤ a then a - b else 2 ^ 64 - (b - a)

/-- `(size_t)v` for an `int32_t`. -/
def sizeOfInt (v : ℤ) : ℕ := if 0 ≤ v then v.toNat else (2 ^ 64 + v).toNat

/-- `CHttpclient::HttpResult`. -/
inductive HttpResult
  | sucess
  | invalidRequesturl
  | tcpInitError
  | hostConnectError
  | setTcpTimeoutError
  | httpheaderSendError
  | httpdataRecvError
  | responseParseError
  deriving DecidableEq, Repr

/-- What the environment answers: the address of a name, whether the calls on the socket succeed,
and what `::send` and `::recv` come to. -/
structure Network where
  getIpByName : Bytes → Bytes
  init : Bool
  connect : Bytes → UInt16 → Bool
  setRecvTimeout : ℤ → Bool
  outs : ℕ → SendOutcome
  recv : RecvOutcome

/-- What a request calls. -/
inductive NetCall
  | getIpByName (host : Bytes)
  | init
  | connect (serverIp : Bytes) (serverPort : UInt16)
  | setRecvTimeout (timeout : ℤ)
  | send (buff : Bytes)
  | recv (buffLen : ℕ)
  | closeSocket
  deriving DecidableEq, Repr

/-- The value a request returns, the string it sets, and what it calls. -/
structure Exchange where
  result : HttpResult
  response : Bytes
  calls : List NetCall
  deriving DecidableEq, Repr

namespace CHttpclient

/-- `parseHttpParameter`: `httpHost`, `httpPage` and `httpParameter`, or `none` for `false`. -/
def parseHttpParameter (requestUtl : Bytes) : Option (Bytes × Bytes × Bytes) :=
  if requestUtl = [] then none
  else
    match Text.find (ascii "http://") requestUtl with
    | none => none
    | some _ =>
        match Text.findFrom (ascii "/") requestUtl 7 with
        | none => none
        | some hostPos =>
            let httpHost := (requestUtl.drop 7).take (sizeSub hostPos 7)
            match Text.find (ascii "?") requestUtl with
            | none => some (httpHost, requestUtl.drop hostPos, [])
            | some pathPos =>
                some (httpHost, (requestUtl.drop hostPos).take (sizeSub pathPos hostPos),
                  requestUtl.drop (pathPos + 1))

/-- `"Content-Length:"`. -/
def contentLength : Bytes := ascii "Content-Length:"

/-- `getHttpData`: what is returned, and `httpData` afterwards. -/
def getHttpData (response httpData : Bytes) : Bool × Bytes :=
  match Text.find contentLength response with
  | some posContentLength =>
      match Text.findFrom (ascii "\r\n") response (posContentLength + 1) with
      | none => (false, httpData)
      | some posNum =>
          let lenStr := (response.drop (posContentLength + contentLength.length)).take
            (sizeSub (sizeSub posNum posContentLength) contentLength.length)
          let len := (STRING.fromStringInt32 lenStr).1
          match Text.find (ascii "\r\n\r\n") response with
          | none => (false, httpData)
          | some endPos =>
              if sizeOfInt len ≤ sizeSub (sizeSub response.length endPos) 4 then
                (true, (response.drop (endPos + 4)).take (sizeOfInt len))
              else (false, httpData)
  | none =>
      match Text.find (ascii "\r\n\r\n") response with
      | none => (false, httpData)
      | some endPos => (true, response.drop (endPos + 4))

/-- `httpHeader` in `getHttpRequestEx`. -/
def getHeader (httpHost httpPage httpParameter : Bytes) : Bytes :=
  ascii "GET " ++ httpPage ++ (if httpParameter = [] then [] else ascii "?" ++ httpParameter) ++
    ascii " HTTP/1.0\r\n" ++ ascii "Accept: */*\r\n" ++ ascii "Accept-Language: zh-cn\r\n" ++
    ascii "User-Agent: Mozilla/4.0\r\n" ++ (ascii "Host: " ++ httpHost ++ ascii "\r\n") ++
    ascii "Connection: close\r\n" ++ ascii "\r\n"

/-- `httpHeader` in `postHttpRequestEx`. -/
def postHeader (httpHost httpPage httpParameter : Bytes) : Bytes :=
  ascii "POST " ++ httpPage ++ ascii " HTTP/1.0\r\n" ++ ascii "Accept: */*\r\n" ++
    ascii "Accept-Language: zh-cn\r\n" ++ ascii "User-Agent: Mozilla/4.0\r\n" ++
    (ascii "Host: " ++ httpHost ++ ascii "\r\n") ++ ascii "Connection: close\r\n" ++
    (ascii "Content-Length:" ++ STRING.toStringSize httpParameter.length ++ ascii "\r\n") ++
    ascii "\r\n" ++ httpParameter

/-- `httpIp`, which is looked up, and `httpPort`. -/
def hostAndPort (httpHost : Bytes) : Bytes × UInt16 :=
  match Text.find (ascii ":") httpHost with
  | none => ([], 80)
  | some portPos =>
      (httpHost.take portPos, (STRING.fromStringUInt16 (httpHost.drop (portPos + 1))).1)

/-- The function `getHttpRequestEx` and `postHttpRequestEx` are copies of, up to the header. -/
def requestEx (header : Bytes → Bytes → Bytes → Bytes) (net : Network) (requestUrl response : Bytes)
    (timeout : ℤ) : Exchange :=
  match parseHttpParameter requestUrl with
  | none => ⟨.invalidRequesturl, response, []⟩
  | some (httpHost, httpPage, httpParameter) =>
      let httpHeader := header httpHost httpPage httpParameter
      let (name, httpPort) := hostAndPort httpHost
      let httpIp := net.getIpByName name
      let calls := [.getIpByName name, .init]
      if net.init = false then ⟨.tcpInitError, response, calls⟩
      else
        let calls := calls ++ [.connect httpIp httpPort]
        if net.connect httpIp httpPort = false then ⟨.hostConnectError, response, calls⟩
        else
          let calls := calls ++ [.setRecvTimeout timeout]
          if net.setRecvTimeout timeout = false then ⟨.setTcpTimeoutError, response, calls⟩
          else
            let calls := calls ++ [.send httpHeader]
            let sendLen := (CTcpSocket.send net.outs httpHeader).value
            if sendLen ≠ httpHeader.length then ⟨.httpheaderSendError, response, calls⟩
            else
              let (recvLen, httpData) := CTcpSocket.recv net.recv 20480
              let calls := calls ++ [.recv 20480, .closeSocket]
              if recvLen ≤ 0 then ⟨.httpdataRecvError, response, calls⟩
              else
                match getHttpData httpData response with
                | (true, response) => ⟨.sucess, response, calls⟩
                | (false, response) => ⟨.responseParseError, response, calls⟩

/-- `getHttpRequestEx`. -/
def getHttpRequestEx (net : Network) (requestUrl response : Bytes) (timeout : ℤ) : Exchange :=
  requestEx getHeader net requestUrl response timeout

/-- `postHttpRequestEx`. -/
def postHttpRequestEx (net : Network) (requestUrl response : Bytes) (timeout : ℤ) : Exchange :=
  requestEx postHeader net requestUrl response timeout

end CHttpclient

end WebSocketDemo
