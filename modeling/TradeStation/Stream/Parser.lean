import TradeStation.Errors
import TradeStation.Python.JsonGrammar
import TradeStation.Python.Utf8

/-!
# The stream parser

`JsonStreamParser` turns the chunks of a connection into messages. `feed` decodes a chunk behind
the text already buffered, and takes messages off the front of the buffer as long as it can; what
is left must look like the start of a message (`looksIncomplete`), or the stream is malformed.
`classifyStreamMessage` says what kind of event a message is.
-/

namespace TradeStation.Stream

open Python

/-- What a connection delivers: bytes, or text already decoded. -/
inductive Chunk
  | bytes (bytes : List UInt8)
  | text (text : List Char)

/-! ## `_looks_incomplete` -/

/-- The state of the scan for open brackets. -/
structure Scan where
  stack : List Char
  inString : Bool
  escaped : Bool

/-- One character of the scan; `none` on a bracket that closes nothing. -/
def scanChar (scan : Scan) (char : Char) : Option Scan :=
  if scan.escaped then some { scan with escaped := false }
  else if char = '\\' then some { scan with escaped := true }
  else if char = '"' then some { scan with inString := !scan.inString }
  else if scan.inString then some scan
  else if char = '{' ∨ char = '[' then some { scan with stack := char :: scan.stack }
  else if char = '}' then
    match scan.stack with
    | top :: stack => if top = '{' then some { scan with stack } else none
    | [] => none
  else if char = ']' then
    match scan.stack with
    | top :: stack => if top = '[' then some { scan with stack } else none
    | [] => none
  else some scan

/-- `_looks_incomplete`: a string or a bracket is still open. -/
def looksIncomplete (buffer : List Char) : Bool :=
  match buffer.foldlM scanChar ⟨[], false, false⟩ with
  | none => false
  | some scan => scan.inString || !scan.stack.isEmpty

/-! ## `JsonStreamParser` -/

/-- `JsonStreamParser`: the buffer, and the bytes its UTF-8 decoder holds back. -/
structure JsonStreamParser where
  buffer : List Char
  pending : List UInt8

/-- `JsonStreamParser()`. -/
def JsonStreamParser.init : JsonStreamParser := ⟨[], []⟩

/-- The loop of `feed`: the messages at the front of a buffer, and the buffer they leave. -/
def drain (buffer : List Char) : Except Exc (List Json.Dict) × List Char :=
  if lstrip buffer = [] then (.ok [], [])
  else
    match _h : Json.rawDecode (lstrip buffer) with
    | none =>
      if looksIncomplete (lstrip buffer) then (.ok [], lstrip buffer)
      else (.error (.streamParse (.malformed (lstrip buffer))), lstrip buffer)
    | some (.obj decoded, rest) =>
      match drain rest with
      | (.ok messages, buffer) => (.ok (decoded :: messages), buffer)
      | (.error exc, buffer) => (.error exc, buffer)
    | some _ => (.error (.streamParse .notObject), lstrip buffer)
termination_by buffer.length
decreasing_by
  have hstrip : (lstrip buffer).length ≤ buffer.length := (List.dropWhile_sublist _).length_le
  have hlength := Json.rawDecode_length _h
  omega

/-- `JsonStreamParser.feed`. A raised exception loses the messages taken off before it. -/
def JsonStreamParser.feed (parser : JsonStreamParser) (chunk : Chunk) :
    Except Exc (List Json.Dict) × JsonStreamParser :=
  match chunk with
  | .bytes bytes =>
    match utf8Decode parser.pending bytes with
    | none => (.error (.streamParse .utf8), parser)
    | some (text, pending) =>
      let drained := drain (parser.buffer ++ text)
      (drained.1, ⟨drained.2, pending⟩)
  | .text text =>
    let drained := drain (parser.buffer ++ text)
    (drained.1, ⟨drained.2, parser.pending⟩)

/-- Feed some chunks one by one: the list each of them returned, up to an exception. -/
def JsonStreamParser.feedAll (parser : JsonStreamParser) :
    List Chunk → Except Exc (List (List Json.Dict)) × JsonStreamParser
  | [] => (.ok [], parser)
  | chunk :: chunks =>
    match parser.feed chunk with
    | (.error exc, parser) => (.error exc, parser)
    | (.ok messages, parser) =>
      match parser.feedAll chunks with
      | (.ok returned, parser) => (.ok (messages :: returned), parser)
      | (.error exc, parser) => (.error exc, parser)

/-! ## `classify_stream_message` -/

/-- `StreamEventKind`. -/
inductive StreamEventKind
  | data
  | endSnapshot
  | goAway
  | heartbeat
  | error
  deriving DecidableEq

/-- `StreamEvent`. -/
structure StreamEvent where
  kind : StreamEventKind
  payload : Json.Dict

/-- The keys of `_looks_like_market_data`. -/
def marketDataKeys : List PyStr :=
  ["Symbol", "Bid", "Ask", "Last", "Close", "TimeStamp", "Bids", "Asks", "BidLevels",
    "AskLevels", "Side", "Price", "Size", "Entries"].map str

/-- `_looks_like_market_data`. -/
def looksLikeMarketData (payload : Json.Dict) : Bool := marketDataKeys.any (Json.hasKey payload)

/-- `payload.get("StreamStatus") == status`. -/
def hasStatus (payload : Json.Dict) (status : PyStr) : Bool :=
  match Json.get payload (str "StreamStatus") with
  | some (.str s) => s = status
  | _ => false

/-- `classify_stream_message`. -/
def classifyStreamMessage (payload : Json.Dict) : StreamEvent :=
  if hasStatus payload (str "EndSnapshot") then ⟨.endSnapshot, payload⟩
  else if hasStatus payload (str "GoAway") then ⟨.goAway, payload⟩
  else if Json.hasKey payload (str "Heartbeat") then ⟨.heartbeat, payload⟩
  else if Json.hasKey payload (str "Error") ||
      (Json.hasKey payload (str "Message") && !looksLikeMarketData payload) then
    ⟨.error, payload⟩
  else ⟨.data, payload⟩

end TradeStation.Stream
