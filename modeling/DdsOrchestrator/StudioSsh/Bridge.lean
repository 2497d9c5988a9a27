import Mathlib.Algebra.Group.Nat.Defs
import Mathlib.Data.List.Basic

/-!
A command that is run on a host over SSH. The key that the server shows is held against the
approved one, the session is opened, and then the messages of the channel are taken until
the first end of the output. How the command ended is told by a message of its own, which
may come before that end or behind it.
-/

namespace DdsOrchestrator.StudioSsh

/-! ### Texts from bytes -/

def isContinuation (b : UInt8) : Bool := 0x80 ≤ b ∧ b ≤ 0xBF

/-- How many bytes follow the first one of a character. -/
def utf8More (b : UInt8) : Option ℕ :=
  if b < 0x80 then some 0
  else if 0xC2 ≤ b ∧ b ≤ 0xDF then some 1
  else if 0xE0 ≤ b ∧ b ≤ 0xEF then some 2
  else if 0xF0 ≤ b ∧ b ≤ 0xF4 then some 3
  else none

/-- The byte may be the second one of a character. -/
def isSecond (first b : UInt8) : Bool :=
  if first = 0xE0 then 0xA0 ≤ b ∧ b ≤ 0xBF
  else if first = 0xED then 0x80 ≤ b ∧ b ≤ 0x9F
  else if first = 0xF0 then 0x90 ≤ b ∧ b ≤ 0xBF
  else if first = 0xF4 then 0x80 ≤ b ∧ b ≤ 0x8F
  else isContinuation b

def continuations : ℕ → List UInt8 → ℕ
  | more + 1, b :: bytes => if isContinuation b then continuations more bytes + 1 else 0
  | _, _ => 0

/-- How many of the bytes that follow the first one are as they have to be. -/
def utf8Run (first : UInt8) : ℕ → List UInt8 → ℕ
  | more + 1, b :: bytes => if isSecond first b then continuations more bytes + 1 else 0
  | _, _ => 0

def utf8Char (first : UInt8) (more : List UInt8) : Char :=
  let bits := if more = [] then first.toNat else first.toNat % 2 ^ (6 - more.length)
  .ofNat (more.foldl (fun value b => value * 64 + b.toNat % 64) bits)

/-- The text with one U+FFFD for every sequence that begins a character and does not end it;
`skip` bytes belong to the last one. -/
def lossyFrom : ℕ → List UInt8 → List Char
  | _, [] => []
  | skip + 1, _ :: bytes => lossyFrom skip bytes
  | 0, first :: bytes =>
      match utf8More first with
      | none => '\uFFFD' :: lossyFrom 0 bytes
      | some more =>
          let run := utf8Run first more bytes
          (if run = more then utf8Char first (bytes.take more) else '\uFFFD') :: lossyFrom run bytes

def fromUtf8Lossy (bytes : List UInt8) : String := .ofList (lossyFrom 0 bytes)

example : lossyFrom 0 [0x48, 0xF0, 0x90, 0x80, 0xC3, 0xA9, 0x80] =
    ['H', '\uFFFD', 'é', '\uFFFD'] := by decide

def fromUtf8 (bytes : List UInt8) : Option String := String.fromUTF8? ⟨bytes.toArray⟩

/-- Where bytes are no text, and what is wrong there. -/
def utf8Error (index : ℕ) : ℕ → List UInt8 → String
  | _, [] => ""
  | skip + 1, _ :: bytes => utf8Error (index + 1) skip bytes
  | 0, first :: bytes =>
      match utf8More first with
      | none => "invalid utf-8 sequence of 1 bytes from index " ++ toString index
      | some more =>
          let run := utf8Run first more bytes
          if run = more then utf8Error (index + 1) run bytes
          else if run = bytes.length then
            "incomplete utf-8 byte sequence from index " ++ toString index
          else
            "invalid utf-8 sequence of " ++ toString (run + 1) ++ " bytes from index " ++
              toString index

/-! ### The session -/

structure SshTarget where
  host : String
  port : UInt16
  username : String
  deriving DecidableEq

structure KeyIdentity where
  keyType : String
  fingerprint : String
  deriving DecidableEq

structure Approval where
  host : String
  port : UInt16
  key : KeyIdentity
  deriving DecidableEq

inductive BridgeError where
  | unknownHost (host : String) (port : UInt16) (keyType fingerprint : String)
  | changedKey (host : String) (port : UInt16) (known presented : String)
  | authFailed (username host : String) (port : UInt16)
  | transport (host : String) (port : UInt16) (detail : String)
  | commandFailed (host : String) (port : UInt16) (status : UInt32) (stdout stderr : String)
  | commandSignaled (host : String) (port : UInt16) (signal stdout stderr : String)
  deriving DecidableEq

/-- The handshake fails before the server shows its key, or the key is shown and the
handshake may fail behind it. -/
inductive Handshake where
  | noKey (err : String)
  | shown (key : KeyIdentity) (err : Option String)
  deriving DecidableEq

/-- What the server and the transport answer until the command runs. -/
structure SessionIo where
  handshake : Handshake
  authenticate : Except String Bool
  channelOpen : Option String
  exec : Option String

def approved (trust : List Approval) (target : SshTarget) : Option KeyIdentity :=
  (trust.find? fun item => item.host = target.host ∧ item.port = target.port).map Approval.key

def SshTarget.fail (target : SshTarget) (detail : String) : BridgeError :=
  .transport target.host target.port detail

def mapConnectError (target : SshTarget) (presented : Option KeyIdentity) (trust : List Approval)
    (err : String) : BridgeError :=
  match presented with
  | none => target.fail err
  | some key =>
      match approved trust target with
      | none => .unknownHost target.host target.port key.keyType key.fingerprint
      | some known => .changedKey target.host target.port known.fingerprint key.fingerprint

/-- A key that is not the approved one is refused. -/
def connect (target : SshTarget) (trust : List Approval) : Handshake → Except BridgeError Unit
  | .noKey err => .error (mapConnectError target none trust err)
  | .shown key err =>
      if approved trust target = some key then
        match err with
        | none => .ok ()
        | some err => .error (mapConnectError target (some key) trust err)
      else .error (mapConnectError target (some key) trust "Unknown server key")

def openSession (target : SshTarget) (trust : List Approval) (io : SessionIo) :
    Except BridgeError Unit :=
  match connect target trust io.handshake with
  | .error e => .error e
  | .ok () =>
      match io.authenticate with
      | .error err => .error (target.fail ("auth: " ++ err))
      | .ok false => .error (.authFailed target.username target.host target.port)
      | .ok true =>
          match io.channelOpen, io.exec with
          | some err, _ | none, some err => .error (target.fail err)
          | none, none => .ok ()

/-! ### The messages of the channel -/

/-- A signal is given by the text it is shown with; `other` is any message without a part
in the command. -/
inductive ChannelMsg where
  | data (bytes : List UInt8)
  | extendedData (bytes : List UInt8) (ext : UInt32)
  | exitStatus (code : UInt32)
  | exitSignal (signalName : String)
  | eof
  | close
  | other
  deriving DecidableEq

@[ext] structure Received where
  stdout : List UInt8
  stderr : List UInt8
  exitStatus : Option UInt32
  exitSignal : Option String
  deriving DecidableEq

def Received.empty : Received := ⟨[], [], none, none⟩

def Received.take (r : Received) : ChannelMsg → Received
  | .data bytes => { r with stdout := r.stdout ++ bytes }
  | .extendedData bytes ext => if ext = 1 then { r with stderr := r.stderr ++ bytes } else r
  | .exitStatus code => { r with exitStatus := some code }
  | .exitSignal name => { r with exitSignal := some name }
  | .eof | .close | .other => r

/-- The loop over the messages; a channel without more of them has ended as well. -/
def receive (r : Received) : List ChannelMsg → Received
  | [] => r
  | .eof :: _ | .close :: _ => r
  | m :: ms => receive (r.take m) ms

def finish (target : SshTarget) (r : Received) : Except BridgeError String :=
  match r.exitSignal with
  | some signal =>
      .error (.commandSignaled target.host target.port signal (fromUtf8Lossy r.stdout)
        (fromUtf8Lossy r.stderr))
  | none =>
      match r.exitStatus.filter (· ≠ 0) with
      | some code =>
          .error (.commandFailed target.host target.port code (fromUtf8Lossy r.stdout)
            (fromUtf8Lossy r.stderr))
      | none =>
          match fromUtf8 r.stdout with
          | some text => .ok text
          | none => .error (target.fail ("saida nao-utf8: " ++ utf8Error 0 0 r.stdout))

def runCommand (target : SshTarget) (trust : List Approval) (io : SessionIo)
    (messages : List ChannelMsg) : Except BridgeError String :=
  match openSession target trust io with
  | .error e => .error e
  | .ok () => finish target (receive .empty messages)

end DdsOrchestrator.StudioSsh
