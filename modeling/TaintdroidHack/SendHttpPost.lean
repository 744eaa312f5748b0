import TaintdroidHack.Trace
import TaintdroidHack.Transfer

/-! `send_http_post`: formatting the request, the two transfer loops, and
every way out of the function. -/

namespace TaintdroidHack

open Framing Transfer

structure Hostent where
  -- the first entry of `h_addr_list`; `h_length` is four for an IPv4 entry
  hAddr : UInt32

structure SockaddrIn where
  sinFamily : UInt16
  sinPort : UInt16
  sinAddr : UInt32
  deriving DecidableEq, Repr

def afInet : UInt16 := 2

def htons (port : Int) : UInt16 :=
  let p := (port % 65536).toNat
  UInt16.ofNat (p % 256 * 256 + p / 256)

/-- What the network answers during one call. A write result is `none` for -1
and otherwise how many bytes the socket would take; a read result is `none` for
-1 and otherwise the bytes that have arrived, empty at the end of file. Either
call transfers at most what it is asked for. -/
structure NetEnv where
  socket : Int
  gethostbyname : Bytes → Option Hostent
  connect : SockaddrIn → Int
  writes : Nat → Option Nat
  reads : Nat → Option Bytes

structure NetState where
  trace : List Event
  writeCalls : Nat
  wire : Bytes
  readCalls : Nat
  response : Bytes

def NetState.emit (s : NetState) (e : Event) : NetState := { s with trace := s.trace ++ [e] }

theorem NetState.emit_trace (s : NetState) (e : Event) : (s.emit e).trace = s.trace ++ [e] := rfl

/-- `returned` is `none` when the call does not return. -/
structure PostRun where
  returned : Option Bool
  state : NetState

def messageFmt : Bytes :=
  ascii ("POST / HTTP/1.0\r\n" ++
    "Content-Length: %d\r\n" ++
    "Content-Type: application/x-www-form-urlencoded\r\n\r\n%s")

-- `char message[strlen(content) + strlen(message_fmt)]`
def messageCapacity (content : Bytes) : Nat := strlen content + strlen messageFmt

def message (content : Bytes) : Option Bytes :=
  sprintf messageFmt [.int (toInt (strlen content)), .str content]

/-- What the array holds after `sprintf`. Nothing about it is defined where the
text and its terminating zero do not fit. -/
def storedMessage (content : Bytes) : Option Bytes :=
  (message content).filter fun m => m.length + 1 ≤ messageCapacity content

def serverAddress (server : Hostent) (port : Int) : SockaddrIn :=
  { sinFamily := afInet, sinPort := htons port, sinAddr := server.hAddr }

def writeCall (env : NetEnv) (message : Bytes) (total : Int) (s : NetState) (sent : Int) :
    Int × NetState :=
  let count := toSize (total - sent)
  match env.writes s.writeCalls with
  | none => (-1, { s with trace := s.trace ++ [.write sent count (-1)]
                          writeCalls := s.writeCalls + 1 })
  | some n =>
    let accepted := (message.drop sent.toNat).take (min n count)
    let bytes := toInt (min n count)
    (bytes, { s with trace := s.trace ++ [.write sent count bytes]
                     writeCalls := s.writeCalls + 1
                     wire := s.wire ++ accepted })

def sendLoop (env : NetEnv) (message : Bytes) (s : NetState) : Outcome NetState :=
  let total := toInt (strlen message)
  Transfer.loop (writeCall env message total) total 0 s

def responseSize : Nat := 4096

def overwrite (buffer : Bytes) (offset : Nat) (data : Bytes) : Bytes :=
  buffer.take offset ++ data ++ buffer.drop (offset + data.length)

def readCall (env : NetEnv) (total : Int) (s : NetState) (received : Int) : Int × NetState :=
  let count := toSize (total - received)
  match env.reads s.readCalls with
  | none => (-1, { s with trace := s.trace ++ [.read received count (-1)]
                          readCalls := s.readCalls + 1 })
  | some chunk =>
    let data := chunk.take count
    let bytes := toInt data.length
    (bytes, { s with trace := s.trace ++ [.read received count bytes]
                     readCalls := s.readCalls + 1
                     response := overwrite s.response received.toNat data })

def receiveLoop (env : NetEnv) (s : NetState) : Outcome NetState :=
  let total := toInt (responseSize - 1)
  Transfer.loop (readCall env total) total 0
    { s with response := List.replicate responseSize 0 }

def enterPost : NetState :=
  { trace := [.acquire (.chars .content), .acquire (.chars .host)]
    writeCalls := 0, wire := [], readCalls := 0, response := [] }

/-- The function from the call of `sprintf` on. -/
def postFormatted (env : NetEnv) (host : Bytes) (port : Int) (formatted : Option Bytes) : PostRun :=
  let s := enterPost
  match formatted with
  -- `sprintf` failed, and what follows works on an indeterminate array
  | none => ⟨none, s⟩
  | some message =>
    if env.socket < 0 then
      ⟨some false, s.emit (.logi "error opening the socket")⟩
    else
      let s := s.emit (.acquire (.socket env.socket))
      match env.gethostbyname host with
      -- `server->h_addr` through a null pointer
      | none => ⟨none, s⟩
      | some server =>
        if env.connect (serverAddress server port) < 0 then
          let s := s.emit (.logi "error connecting")
          ⟨some false, s.emit (.release (.socket env.socket))⟩
        else
          let out := sendLoop env message s
          if out.exit = .error then
            ⟨some false, out.state.emit (.logi "error writing message to socket")⟩
          else
            let inp := receiveLoop env out.state
            if inp.exit = .error then
              ⟨some false, inp.state.emit (.logi "error reading response from socket")⟩
            else if inp.moved = toInt (responseSize - 1) then
              ⟨some false, inp.state.emit (.logi "error storing complete response from socket")⟩
            else
              let s := inp.state.emit (.logResponse (cString inp.state.response))
              let s := s.emit (.release (.socket env.socket))
              let s := s.emit (.release (.chars .content))
              ⟨some true, s.emit (.release (.chars .host))⟩

def sendHttpPost (env : NetEnv) (content_ host_ : JString) (port : Int) : PostRun :=
  let content := getStringUTFChars content_
  let host := getStringUTFChars host_
  postFormatted env host port (message content)

/-- The call where the array is not left out of account: a request that overruns
it leaves no return to speak of, like one that `sprintf` fails on. -/
def sendHttpPostStored (env : NetEnv) (content_ host_ : JString) (port : Int) : PostRun :=
  let content := getStringUTFChars content_
  let host := getStringUTFChars host_
  postFormatted env host port (storedMessage content)

def requestHead (n : Nat) : List Bytes :=
  [ascii "POST / HTTP/1.0", ascii "Content-Length: " ++ decimal n,
    ascii "Content-Type: application/x-www-form-urlencoded"]

theorem messageFmt_split : messageFmt =
    (ascii "POST / HTTP/1.0" ++ crlf ++ ascii "Content-Length: ") ++ 37 :: 100 ::
      ((crlf ++ ascii "Content-Type: application/x-www-form-urlencoded" ++ headEnd) ++
        [37, 115]) := by
  have hpost : ascii "POST / HTTP/1.0\r\n" = ascii "POST / HTTP/1.0" ++ crlf := by decide
  have hlength : ascii "Content-Length: %d\r\n" =
      ascii "Content-Length: " ++ 37 :: 100 :: crlf := by decide
  have htype : ascii "Content-Type: application/x-www-form-urlencoded\r\n\r\n%s" =
      ascii "Content-Type: application/x-www-form-urlencoded" ++ headEnd ++ [37, 115] := by
    decide
  rw [messageFmt, ascii_append, ascii_append, hpost, hlength, htype]
  simp only [List.append_assoc, List.cons_append]

theorem format_messageFmt (i : Int) (content : Bytes) :
    format messageFmt [.int i, .str content] =
      ascii "POST / HTTP/1.0" ++ crlf ++ ascii "Content-Length: " ++ decimalInt i ++
        (crlf ++ ascii "Content-Type: application/x-www-form-urlencoded" ++ headEnd) ++
        cString content := by
  rw [messageFmt_split, format_append (by decide), format_conversion (.inl rfl),
    format_append (by decide), format_conversion (.inr rfl)]
  simp only [convert, if_true, format, List.append_nil, List.append_assoc]

theorem not_mem_requestHead {b : UInt8} (hd : ¬ Digit b) (hpost : b ∉ ascii "POST / HTTP/1.0")
    (hlength : b ∉ ascii "Content-Length: ")
    (htype : b ∉ ascii "Content-Type: application/x-www-form-urlencoded") (n : Nat) :
    ∀ l ∈ requestHead n, b ∉ l := by
  have hmid : b ∉ ascii "Content-Length: " ++ decimal n := by
    intro hm
    rcases List.mem_append.mp hm with h | h
    · exact hlength h
    · exact hd (digit_of_mem_decimal h)
  intro l hl
  simp only [requestHead, List.mem_cons, List.not_mem_nil, or_false] at hl
  rcases hl with rfl | rfl | rfl
  · exact hpost
  · exact hmid
  · exact htype

theorem requestHead_isLine (n : Nat) : ∀ l ∈ requestHead n, IsLine l := by
  intro l hl
  refine ⟨?_, not_mem_requestHead (by decide) (by decide) (by decide) (by decide) n l hl⟩
  simp only [requestHead, List.mem_cons, List.not_mem_nil, or_false] at hl
  rcases hl with rfl | rfl | rfl
  · decide
  · exact List.append_ne_nil_of_left_ne_nil (by decide) _
  · decide

theorem format_eq_request {content : Bytes} (h0 : 0 ∉ content) (hlen : content.length < 2 ^ 31) :
    format messageFmt [.int (toInt (strlen content)), .str content] =
      joinLines (requestHead content.length) ++ headEnd ++ content := by
  rw [format_messageFmt, strlen_of_zero_not_mem h0, decimalInt_toInt hlen,
    cString_of_zero_not_mem h0]
  simp only [requestHead, joinLines, List.append_assoc]

theorem message_eq_some {content m : Bytes} (h0 : 0 ∉ content) (hm : message content = some m) :
    m = joinLines (requestHead content.length) ++ headEnd ++ content ∧ m.length < 2 ^ 31 := by
  rw [message, sprintf] at hm
  split_ifs at hm with hlt
  have hlen : content.length < 2 ^ 31 := by
    rw [format_messageFmt, List.length_append, cString_of_zero_not_mem h0] at hlt
    omega
  rw [format_eq_request h0 hlen] at hm hlt
  obtain rfl := Option.some.inj hm
  exact ⟨rfl, hlt⟩

theorem length_requestHead (n : Nat) :
    (joinLines (requestHead n) ++ headEnd).length = (decimal n).length + 86 := by
  have h1 : (ascii "POST / HTTP/1.0").length = 15 := by decide
  have h2 : (ascii "Content-Length: ").length = 16 := by decide
  have h3 : (ascii "Content-Type: application/x-www-form-urlencoded").length = 47 := by decide
  simp only [requestHead, joinLines, List.length_append, h1, h2, h3, crlf, headEnd,
    List.length_cons, List.length_nil]
  omega

theorem length_format_messageFmt {content : Bytes} (h0 : 0 ∉ content)
    (hlen : content.length < 2 ^ 31) :
    (format messageFmt [.int (toInt (strlen content)), .str content]).length =
      content.length + (decimal content.length).length + 86 := by
  rw [format_eq_request h0 hlen, List.length_append, length_requestHead]
  omega

theorem length_format_lt {content : Bytes} (h0 : 0 ∉ content)
    (hlen : content.length + 100 < 2 ^ 31) :
    (format messageFmt [.int (toInt (strlen content)), .str content]).length < 2 ^ 31 := by
  have hd : (decimal content.length).length ≤ 10 :=
    (length_decimal_le_iff (by omega)).mpr (by omega)
  rw [length_format_messageFmt h0 (by omega)]
  omega

theorem message_of_length_lt {content : Bytes} (h0 : 0 ∉ content)
    (hlen : content.length + 100 < 2 ^ 31) : ∃ m, message content = some m :=
  ⟨_, by rw [message, sprintf, if_pos (length_format_lt h0 hlen)]⟩

theorem zero_not_mem_joinLines {ls : List Bytes} (h : ∀ l ∈ ls, (0 : UInt8) ∉ l) :
    (0 : UInt8) ∉ joinLines ls := by
  induction ls with
  | nil => simp [joinLines]
  | cons l ls ih =>
    cases ls with
    | nil => exact h l (by simp)
    | cons l' ls =>
      have hh := ih fun x hx => h x (List.mem_cons_of_mem _ hx)
      rw [joinLines]
      simp [h l (by simp), hh, crlf]

theorem zero_not_mem_message {content m : Bytes} (h0 : 0 ∉ content)
    (hm : message content = some m) : (0 : UInt8) ∉ m := by
  have hlines := not_mem_requestHead (b := 0) (by decide) (by decide) (by decide) (by decide)
    content.length
  have hhead := zero_not_mem_joinLines hlines
  rw [(message_eq_some h0 hm).1]
  simp [hhead, h0, headEnd]

theorem message_length_pos {content m : Bytes} (h0 : 0 ∉ content)
    (hm : message content = some m) : 0 < m.length := by
  rw [(message_eq_some h0 hm).1]
  simp [headEnd]

theorem headerValue_requestHead (n : Nat) :
    headerValue (ascii "Content-Length: ") (requestHead n) = some (decimal n) := by
  have h1 : ¬ (ascii "Content-Length: ").isPrefixOf (ascii "POST / HTTP/1.0") = true := by decide
  have h2 : (ascii "Content-Length: ").isPrefixOf (ascii "Content-Length: " ++ decimal n) = true := by
    simp
  rw [headerValue, requestHead, List.findSome?_cons, if_neg h1, List.findSome?_cons, if_pos h2,
    List.drop_left]

theorem readMessage_message {content m : Bytes} (h0 : 0 ∉ content)
    (hm : message content = some m) :
    readMessage (ascii "Content-Length: ") m = some (content, []) := by
  have hread := readMessage_joinLines (requestHead_isLine content.length) (by simp [requestHead])
    (headerValue_requestHead content.length) []
  rw [List.append_nil] at hread
  rwa [(message_eq_some h0 hm).1]

/-- The request formatted for any content reads back as exactly that content,
and `strlen` sees all of it. -/
theorem request_round_trip {content : Bytes} (h0 : 0 ∉ content)
    (hlen : (format messageFmt [.int (toInt (strlen content)), .str content]).length < 2 ^ 31) :
    ∃ m, message content = some m ∧ strlen m = m.length ∧
      readMessage (ascii "Content-Length: ") m = some (content, []) := by
  obtain ⟨m, hm⟩ : ∃ m, message content = some m :=
    ⟨_, by rw [message, sprintf, if_pos hlen]⟩
  exact ⟨m, hm, strlen_of_zero_not_mem (zero_not_mem_message h0 hm), readMessage_message h0 hm⟩

theorem request_round_trip_forged :
    ∃ m, message (ascii "%s\r\n\r\nContent-Length: 0\r\n\r\n") = some m ∧ strlen m = m.length ∧
      readMessage (ascii "Content-Length: ") m =
        some (ascii "%s\r\n\r\nContent-Length: 0\r\n\r\n", []) :=
  request_round_trip (by decide) (length_format_lt (by decide) (by decide))

theorem messageCapacity_eq {content : Bytes} (h0 : 0 ∉ content) :
    messageCapacity content = content.length + 90 := by
  have hfmt : strlen messageFmt = 90 := by
    rw [strlen_of_zero_not_mem]
    · rw [messageFmt_split]
      decide
    · rw [messageFmt_split]
      decide
  rw [messageCapacity, strlen_of_zero_not_mem h0, hfmt]

theorem digits_fit_iff (n : Nat) : n + (decimal n).length + 86 + 1 ≤ n + 90 ↔ n < 1000 := by
  have hdigits : (decimal n).length ≤ 3 ↔ n < 10 ^ 3 := length_decimal_le_iff (by omega)
  omega

/-- The two specifiers leave room for three digits and the terminating zero. -/
theorem format_fits_iff {content : Bytes} (h0 : 0 ∉ content) (hlen : content.length < 2 ^ 31) :
    (format messageFmt [.int (toInt (strlen content)), .str content]).length + 1 ≤
        messageCapacity content ↔ content.length < 1000 := by
  rw [length_format_messageFmt h0 hlen, messageCapacity_eq h0]
  exact digits_fit_iff content.length

theorem format_fits_iff_letter :
    (format messageFmt [.int (toInt (strlen [65])), .str [65]]).length + 1 ≤
        messageCapacity [65] ↔ ([65] : Bytes).length < 1000 :=
  format_fits_iff (by decide) (by decide)

theorem thousand_bytes_overflow :
    (0 : UInt8) ∉ List.replicate 1000 65 ∧
      ¬ (format messageFmt [.int (toInt (strlen (List.replicate 1000 65))),
          .str (List.replicate 1000 65)]).length + 1 ≤
        messageCapacity (List.replicate 1000 65) := by
  have h0 : (0 : UInt8) ∉ List.replicate 1000 65 := fun hm =>
    absurd (List.eq_of_mem_replicate hm) (by decide)
  have hdigits : (decimal 1000).length ≤ 3 ↔ 1000 < 10 ^ 3 := length_decimal_le_iff (by omega)
  have hlen : (List.replicate 1000 (65 : UInt8)).length = 1000 := List.length_replicate
  refine ⟨h0, ?_⟩
  rw [length_format_messageFmt h0 (by omega), messageCapacity_eq h0, hlen]
  omega

theorem length_message {content m : Bytes} (h0 : 0 ∉ content) (hm : message content = some m) :
    m.length = content.length + (decimal content.length).length + 86 := by
  rw [(message_eq_some h0 hm).1, List.length_append, length_requestHead]
  omega

theorem message_fits_iff {content m : Bytes} (h0 : 0 ∉ content) (hm : message content = some m) :
    m.length + 1 ≤ messageCapacity content ↔ content.length < 1000 := by
  rw [length_message h0 hm, messageCapacity_eq h0]
  exact digits_fit_iff content.length

theorem storedMessage_of_length_lt {content : Bytes} (h0 : 0 ∉ content)
    (hlen : content.length < 1000) : storedMessage content = message content := by
  rw [storedMessage]
  cases hm : message content with
  | none => rfl
  | some m => exact Option.filter_some_eq_some.mpr (decide_eq_true ((message_fits_iff h0 hm).mpr hlen))

theorem storedMessage_eq_some {content m : Bytes} (h0 : 0 ∉ content)
    (hm : storedMessage content = some m) : message content = some m ∧ content.length < 1000 := by
  obtain ⟨hmessage, hfits⟩ := Option.filter_eq_some_iff.mp hm
  exact ⟨hmessage, (message_fits_iff h0 hmessage).mp (of_decide_eq_true hfits)⟩

theorem storedMessage_isSome_iff {content : Bytes} (h0 : 0 ∉ content) :
    (storedMessage content).isSome ↔ content.length < 1000 := by
  constructor
  · intro hsome
    obtain ⟨m, hm⟩ := Option.isSome_iff_exists.mp hsome
    exact (storedMessage_eq_some h0 hm).2
  · intro hlen
    obtain ⟨m, hm⟩ := message_of_length_lt h0 (by omega)
    rw [storedMessage_of_length_lt h0 hlen, hm]
    rfl

end TaintdroidHack
