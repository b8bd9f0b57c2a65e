/-
# The HTTP server

`http::handler` of `http.cpp` and the part of the sandbird server it writes through. A
reply is what the handler adds to the response: its headers, its body, and the name of
the file it tries to read. The file system and the answer of the remote server are
parameters.
-/

import SrmotionProxy.Events.Common

namespace SrmotionProxy.Http

open SrmotionProxy.Lib SrmotionProxy.Events

/-! ## Formatting -/

/-- `'%'` and `'s'`. -/
def percent : UInt8 := 37
def letterS : UInt8 := 115

/-- A template with its `%s` replaced by the strings, `field` being what is written of
each. -/
def fill (field : Bytes → Bytes) : Bytes → List Bytes → Bytes
  | [], _ => []
  | [byte], _ => [byte]
  | byte :: next :: msg, [] => byte :: fill field (next :: msg) []
  | byte :: next :: msg, arg :: args =>
      if byte = percent ∧ next = letterS then field arg ++ fill field msg args
      else byte :: fill field (next :: msg) (arg :: args)

/-- `format` with C strings for the `%s`, the only directives of its template: at most
1023 bytes of the text fit into the buffer. -/
def format (msg : Bytes) (args : List Bytes) : Bytes := cStr ((fill cStr msg args).take 1023)

/-- `isalpha`. -/
def isAlpha (byte : UInt8) : Bool := (65 ≤ byte && byte ≤ 90) || (97 ≤ byte && byte ≤ 122)

/-- The conversions of `sb_buffer_vwritef` that take an argument, behind `%` and flags. -/
def takesArgument (byte : UInt8) : Bool := (ascii "fgcdiuxXp").contains byte

/-- `sb_buffer_vwritef` of a call without further arguments, `some flags` while it copies a
directive to `fbuf`. An argument that is not there, a directive that does not fit into the
64 bytes of `fbuf`, and one that goes on behind the end of the text are undefined. -/
def sbBufferVwritef : Option Nat → Bytes → Except Abort Bytes
  | none, [] => .ok []
  | some _, [] => .error .undefinedBehaviour
  | none, byte :: fmt =>
      if byte = percent then sbBufferVwritef (some 0) fmt
      else do return byte :: (← sbBufferVwritef none fmt)
  | some flags, byte :: fmt =>
      if flags = 0 ∧ byte = letterS then .error .undefinedBehaviour
      else if !isAlpha byte && byte ≠ percent then
        if flags < 61 then sbBufferVwritef (some (flags + 1)) fmt
        else .error .undefinedBehaviour
      else if takesArgument byte then .error .undefinedBehaviour
      else do return byte :: (← sbBufferVwritef none fmt)

/-- `sb_writef(stream, fmt)`. -/
def sbWritef (fmt : Bytes) : Except Abort Bytes := sbBufferVwritef none fmt

/-! ## Requests -/

/-- What the handler relies on: the two globals, `getMeta()`, and `read_file`. -/
structure Env where
  ip : Bytes
  port : Bytes
  getMeta : Bytes
  readFile : Bytes → Option Bytes

/-- What the handler makes of a request; every status is `200 OK`. -/
structure Reply where
  headers : List (Bytes × Bytes)
  opened : Option Bytes
  body : Bytes

/-- The template `server_data`. -/
def serverData : Bytes := texts [
  "server|%s\n",
  "port|%s\n",
  "type|1\n",
  "#maint|Under mainteance.\n",
  "beta_server|%s\n",
  "beta_port|1945\n",
  "beta_type|1\n",
  "meta|%s\n",
  "RTENDMARKERBS1001\n"]

def textPlain : Bytes × Bytes := (ascii "Content-Type", ascii "text/plain")

/-- The branch of `server_data.php`. -/
def serverDataReply (env : Env) : Except Abort Reply := do
  let body ← sbWritef (format serverData [env.ip, env.port, env.ip, env.getMeta])
  return { headers := [textPlain], opened := none, body }

/-- The branch of the cached files: the name is the path without its first byte. -/
def fileReply (env : Env) (path : Bytes) : Except Abort Reply :=
  let name := path.drop 1
  match env.readFile name with
  | some content =>
      return {
        headers := [
          (ascii "Content-Type", ascii "application/x-www-form-urlencoded"),
          (ascii "Content-Length", toDecimal (wrapInt content.length)),
          (ascii "beserver", ascii "06"),
          (ascii "Connection", ascii "keep-alive"),
          (ascii "Accept-Ranges", ascii "bytes")]
        opened := some name
        body := content }
  | none => do
      let body ← sbWritef (ascii "file not found")
      return { headers := [textPlain], opened := some name, body }

/-- The second test of the handler. -/
def asksFile (method path : Bytes) : Bool :=
  (contains path (ascii "/game/") || contains path (ascii "/social/") ||
    contains path (ascii "/interface/") || contains path (ascii "/audio/")) &&
  contains method (ascii "GET")

/-- `http::handler` for a request. -/
def handler (env : Env) (method path : Bytes) : Except Abort Reply :=
  if contains path (ascii "/growtopia/server_data.php") then serverDataReply env
  else if asksFile method path then fileReply env path
  else do
    let body ← sbWritef (ascii "unknown")
    return { headers := [textPlain], opened := none, body }

end SrmotionProxy.Http
