/-
MyDuck.Pg.Scram — SCRAM-SHA-256 authentication (`authentication_scram.go`).

Strings and byte slices are octet lists. The hash functions are
parameters of the model (`Hash`): nothing below depends on what they
compute, only that an HMAC has 32 octets. The random octets of the
server nonce are an argument.

The backend decodes a password message as a SASLInitialResponse or as a
SASLResponse depending on the authentication type set before, so a
client message carries both readings; a payload that is no
SASLInitialResponse makes `Receive` fail.

`ClientFirst` at the end is the other side: a client that follows
RFC 5802, without channel binding and without extensions.
-/
import MyDuck.Base.Base64
import MyDuck.Base.Strings

namespace MyDuck.Pg

open Strings

abbrev Octets := List UInt8

def ascii (s : String) : Octets := s.toList.map Char.toUInt8

def comma : UInt8 := 44

/-! ## The functions of RFC 5802 and the roles -/

/-- SHA-256, HMAC-SHA-256 and the salted password of RFC 5802. -/
structure Hash where
  h : Octets → Octets
  hmac : Octets → Octets → Octets
  /-- `Hi`: password, salt, iterations. -/
  hi : Octets → Octets → Nat → Octets
  hmac_length : ∀ key message, (hmac key message).length = 32

def xor (a b : Octets) : Octets := List.zipWith (· ^^^ ·) a b

structure ScramSha256Password where
  salt : Octets
  storedKey : Octets
  serverKey : Octets
  deriving DecidableEq, Repr

def clientKey (hash : Hash) (saltedPassword : Octets) : Octets :=
  hash.hmac saltedPassword (ascii "Client Key")

def iterations : Nat := 4096

/-- `NewScramSha256Password` with the salt it drew. -/
def newScramSha256Password (hash : Hash) (password salt : Octets) : ScramSha256Password :=
  let saltedPassword := hash.hi password salt iterations
  { salt := salt
    storedKey := hash.h (clientKey hash saltedPassword)
    serverKey := hash.hmac saltedPassword (ascii "Server Key") }

/-- A role; the defaults are those of a role that does not exist. -/
structure Role where
  name : Octets := []
  canLogin : Bool := false
  password : Option ScramSha256Password := none
  deriving DecidableEq, Repr

structure Server where
  hash : Hash
  roles : List (Octets × Role) := []
  enableAuthentication : Bool := true

def Server.getRole (srv : Server) (name : Octets) : Role := (srv.roles.lookup name).getD {}

/-- Only the superuser has a password. An empty one switches the
authentication off. -/
def initSuperuser (hash : Hash) (password salt : Octets) : Server where
  hash := hash
  roles := [(ascii "postgres", ⟨ascii "postgres", true,
    some (newScramSha256Password hash password salt)⟩)]
  enableAuthentication := password ≠ []

/-! ## Messages -/

inductive ScramError where
  | receive
  | unknownMessage
  | mechanismNotSupported (mechanism : Octets)
  | tooFewSections
  | malformedFlag
  | malformedChannelBinding
  | malformedFlagOption (c : UInt8)
  | malformedAuthzid
  | malformedHeader
  | unknownHeaderOption (c : UInt8)
  | missingNonce
  | attributeTooSmall
  | inconsistentHeader
  | nonceMismatch
  | unknownAttribute (c : UInt8)
  | responseMissingNonce
  | responseMissingProof
  | passwordAuthenticationFailed (name : Octets)
  deriving DecidableEq, Repr

def text (s : Octets) : String := String.ofList (s.map fun o => Char.ofNat o.toNat)

/-- The text of the error. The missing proof is reported as a missing
nonce. -/
def ScramError.message : ScramError → String
  | .receive => "error receiving message"
  | .unknownMessage => "unknown message type encountered during SASL authentication"
  | .mechanismNotSupported m => "SASL mechanism not supported: " ++ text m
  | .tooFewSections => "invalid SASLInitialResponse: too few sections"
  | .malformedFlag => "invalid SASLInitialResponse: malformed gs2-cbind-flag"
  | .malformedChannelBinding =>
    "invalid SASLInitialResponse: malformed gs2-cbind-flag channel binding"
  | .malformedFlagOption c =>
    "invalid SASLInitialResponse: malformed gs2-cbind-flag options (" ++ text [c] ++ ")"
  | .malformedAuthzid => "invalid SASLInitialResponse: malformed authzid"
  | .malformedHeader => "invalid SASLInitialResponse: malformed gs2-header"
  | .unknownHeaderOption c =>
    "invalid SASLInitialResponse: unknown gs2-header option (" ++ text [c] ++ ")"
  | .missingNonce => "invalid SASLInitialResponse: missing nonce"
  | .attributeTooSmall => "invalid SASLResponse: attribute too small"
  | .inconsistentHeader => "invalid SASLResponse: inconsistent GS2 header"
  | .nonceMismatch => "invalid SASLResponse: nonce does not match authentication session"
  | .unknownAttribute c => "invalid SASLResponse: unknown attribute (" ++ text [c] ++ ")"
  | .responseMissingNonce => "invalid SASLResponse: missing nonce"
  | .responseMissingProof => "invalid SASLResponse: missing nonce"
  | .passwordAuthenticationFailed name =>
    "password authentication failed for user \"" ++ text name ++ "\""

structure SASLInitialResponse where
  authMechanism : Octets
  data : Octets
  deriving DecidableEq, Repr

inductive ClientMessage where
  | password (initial : Option SASLInitialResponse) (response : Octets)
  | other
  deriving DecidableEq, Repr

inductive Reply where
  | authenticationOk
  | authenticationSASL (mechanisms : List Octets)
  | authenticationSASLContinue (data : Octets)
  | authenticationSASLFinal (data : Octets)
  | errorResponse (severity code message : String)
  deriving DecidableEq, Repr

def saslMechanism : Octets := ascii "SCRAM-SHA-256"

/-! ## The client's first message -/

inductive SASLBindingFlag where
  | noClientSupport
  | assumedNoServerSupport
  | used
  deriving DecidableEq, Repr

structure SASLInitial where
  /-- Empty before a message was read. -/
  flag : Option SASLBindingFlag := none
  bindName : Octets := []
  binding : Octets := []
  authzid : Octets := []
  username : Octets := []
  nonce : Octets := []
  rawData : Octets := []
  deriving DecidableEq, Repr

/-- The gs2-cbind-flag, the first section. -/
def readFlag (flag : Octets) : Except ScramError SASLInitial :=
  match flag with
  | [] => .error .malformedFlag
  | c :: _ =>
    if c = 110 then .ok { flag := some .noClientSupport }
    else if c = 112 then
      if flag.length < 3 then .error .malformedChannelBinding
      else .ok { flag := some .used, bindName := flag.drop 2 }
    else if c = 121 then .ok { flag := some .assumedNoServerSupport }
    else .error (.malformedFlagOption c)

/-- The authorization identity, the second section. Only its length is
checked. -/
def readAuthzid (authzid : Octets) (si : SASLInitial) : Except ScramError SASLInitial :=
  if authzid = [] then .ok si
  else if authzid.length < 3 then .error .malformedAuthzid
  else .ok { si with authzid := authzid.drop 2 }

/-- Any section behind the first two. -/
def readOption (si : SASLInitial) (option : Octets) : Except ScramError SASLInitial :=
  match option with
  | c :: _ :: value =>
    if c = 99 then .ok { si with binding := value }
    else if c = 110 then .ok { si with username := value }
    else if c = 114 then .ok { si with nonce := value }
    else .error (.unknownHeaderOption c)
  | _ => .error .malformedHeader

def readSASLInitial (r : SASLInitialResponse) : Except ScramError SASLInitial :=
  if r.authMechanism ≠ saslMechanism then .error (.mechanismNotSupported r.authMechanism)
  else
    match r.data.splitOn comma with
    | flag :: authzid :: option :: options => do
      let si ← readFlag flag
      let si ← readAuthzid authzid si
      let si ← (option :: options).foldlM readOption si
      if si.nonce = [] then .error .missingNonce
      else .ok { si with rawData := r.data }
    | _ => .error .tooFewSections

/-- `base64HeaderBytes`: the gs2 header, put together from what was read. -/
def SASLInitial.headerBytes (si : SASLInitial) : Octets :=
  (match si.flag with
    | some .noClientSupport => ascii "n,"
    | some .assumedNoServerSupport => ascii "y,"
    | some .used => ascii "p=" ++ si.bindName ++ [comma]
    | none => []) ++ si.authzid ++ [comma]

def SASLInitial.base64Header (si : SASLInitial) : Octets := Base64.encode si.headerBytes

def SASLInitial.messageBare (si : SASLInitial) : Octets := trimPrefix si.rawData si.headerBytes

/-! ## The server's first message -/

structure SASLContinue where
  nonce : Octets := []
  salt : Octets := []
  iterations : Nat := 0
  deriving DecidableEq, Repr

def SASLContinue.encode (sc : SASLContinue) : Octets :=
  ascii "r=" ++ sc.nonce ++ ascii ",s=" ++ sc.salt ++ ascii ",i=" ++ ascii (toString sc.iterations)

/-! ## The client's final message -/

structure SASLResponse where
  gs2Header : Octets := []
  nonce : Octets := []
  clientProof : Octets := []
  rawData : Octets := []
  deriving DecidableEq, Repr

/-- One attribute. Its value is checked where it occurs, and only its first
character says which one it is. -/
def readAttribute (header nonce : Octets) (sr : SASLResponse) (attr : Octets) :
    Except ScramError SASLResponse :=
  match attr with
  | c :: _ :: v :: value =>
    if c = 99 then
      if v :: value ≠ header then .error .inconsistentHeader
      else .ok { sr with gs2Header := v :: value }
    else if c = 112 then .ok { sr with clientProof := v :: value }
    else if c = 114 then
      if v :: value ≠ nonce then .error .nonceMismatch
      else .ok { sr with nonce := v :: value }
    else .error (.unknownAttribute c)
  | _ => .error .attributeTooSmall

def readSASLResponse (header nonce data : Octets) : Except ScramError SASLResponse := do
  let sr ← (data.splitOn comma).foldlM (readAttribute header nonce) {}
  if sr.nonce = [] then .error .responseMissingNonce
  else if sr.clientProof = [] then .error .responseMissingProof
  else .ok { sr with rawData := data }

/-- Everything in front of the last `,p=`. -/
def SASLResponse.messageWithoutProof (sr : SASLResponse) : Octets :=
  match lastIndex (ascii ",p=") sr.rawData with
  | none => sr.rawData
  | some i => sr.rawData.take i

/-! ## The proof -/

def authMessage (si : SASLInitial) (sc : SASLContinue) (sr : SASLResponse) : Octets :=
  si.messageBare ++ [comma] ++ sc.encode ++ [comma] ++ sr.messageWithoutProof

/-- `Base64ToOctetString`: an invalid text has no octets. -/
def base64ToOctetString (s : Octets) : Octets := (Base64.decode s).getD []

/-- The server signature in base64 when the proof is valid. -/
def verifySASLClientProof (hash : Hash) (user : Role) (si : SASLInitial) (sc : SASLContinue)
    (sr : SASLResponse) : Except ScramError Octets :=
  match user.password with
  | none => .error (.passwordAuthenticationFailed user.name)
  | some password =>
    if !user.canLogin then .error (.passwordAuthenticationFailed user.name)
    else
      let clientProof := base64ToOctetString sr.clientProof
      let clientSignature := hash.hmac password.storedKey (authMessage si sc sr)
      if clientProof.length ≠ clientSignature.length then
        .error (.passwordAuthenticationFailed user.name)
      else if hash.h (xor clientSignature clientProof) ≠ password.storedKey then
        .error (.passwordAuthenticationFailed user.name)
      else .ok (Base64.encode (hash.hmac password.serverKey (authMessage si sc sr)))

/-! ## The exchange -/

/-- The decoding the backend was told to expect of a password message. -/
inductive AuthType where
  | sasl
  | saslContinue
  deriving DecidableEq, Repr

inductive Received where
  | saslInitialResponse (r : SASLInitialResponse)
  | saslResponse (data : Octets)
  | other
  deriving DecidableEq, Repr

def receive (authType : AuthType) : ClientMessage → Option Received
  | .password initial response =>
    match authType with
    | .sasl => initial.map .saslInitialResponse
    | .saslContinue => some (.saslResponse response)
  | .other => some .other

/-- What the loop of `handleAuthentication` keeps. -/
structure Exchange where
  authType : AuthType := .sasl
  initial : SASLInitial := {}
  continued : SASLContinue := {}
  deriving DecidableEq, Repr

/-- The replies, and the error returned if any. -/
structure AuthResult where
  sent : List Reply
  err : Option ScramError
  deriving DecidableEq, Repr

def fatal (code : String) (e : ScramError) : AuthResult :=
  ⟨[.errorResponse "FATAL" code e.message], some e⟩

def AuthResult.after (replies : List Reply) (r : AuthResult) : AuthResult :=
  { r with sent := replies ++ r.sent }

/-- The salt of the role, or one that is stable for the name. -/
def saltOf (hash : Hash) (username : Octets) (role : Role) : Octets :=
  match role.password with
  | some password => Base64.encode password.salt
  | none => Base64.encode ((hash.h username).take 16)

def authLoop (hash : Hash) (username : Octets) (role : Role) (serverNonce : Octets) :
    Exchange → List ClientMessage → AuthResult
  | _, [] => ⟨[], some .receive⟩
  | x, m :: rest =>
    match receive x.authType m with
    | none => ⟨[], some .receive⟩
    | some (.saslInitialResponse r) =>
      match readSASLInitial r with
      | .error e => fatal "XX000" e
      | .ok initial =>
        let continued : SASLContinue :=
          ⟨initial.nonce ++ Base64.encode serverNonce, saltOf hash username role, iterations⟩
        (authLoop hash username role serverNonce ⟨.saslContinue, initial, continued⟩ rest).after
          [.authenticationSASLContinue continued.encode]
    | some (.saslResponse data) =>
      match readSASLResponse x.initial.base64Header x.continued.nonce data with
      | .error e => fatal "XX000" e
      | .ok response =>
        match verifySASLClientProof hash role x.initial x.continued response with
        | .error e => fatal "28P01" e
        | .ok serverSignature =>
          ⟨[.authenticationSASLFinal (ascii "v=" ++ serverSignature), .authenticationOk], none⟩
    | some .other => ⟨[], some .unknownMessage⟩

/-- The name in the startup message, `postgres` when there is none. -/
def startupUser : Option Octets → Octets
  | some name => if name = [] then ascii "postgres" else name
  | none => ascii "postgres"

def handleAuthentication (srv : Server) (user : Option Octets) (serverNonce : Octets)
    (messages : List ClientMessage) : AuthResult :=
  let username := startupUser user
  if !srv.enableAuthentication then ⟨[.authenticationOk], none⟩
  else
    (authLoop srv.hash username (srv.getRole username) serverNonce {} messages).after
      [.authenticationSASL [saslMechanism]]

/-! ## A client of RFC 5802 -/

/-- A client-first message without channel binding and extensions. The
names are escaped and the nonce is printable, so none holds a comma. -/
structure ClientFirst where
  /-- The gs2-cbind-flag is `y`, not `n`. -/
  assumesNoServerSupport : Bool
  authzid : Option Octets
  username : Octets
  nonce : Octets
  authzid_ok : ∀ a ∈ authzid, a ≠ [] ∧ comma ∉ a
  username_ok : comma ∉ username
  nonce_ok : nonce ≠ [] ∧ comma ∉ nonce

namespace ClientFirst

def flag (c : ClientFirst) : Octets := if c.assumesNoServerSupport then ascii "y" else ascii "n"

def identity (c : ClientFirst) : Octets :=
  match c.authzid with
  | some a => ascii "a=" ++ a
  | none => []

def gs2Header (c : ClientFirst) : Octets := c.flag ++ [comma] ++ c.identity ++ [comma]

def bare (c : ClientFirst) : Octets := ascii "n=" ++ c.username ++ ascii ",r=" ++ c.nonce

def message (c : ClientFirst) : SASLInitialResponse := ⟨saslMechanism, c.gs2Header ++ c.bare⟩

/-- The client-final message without its proof. -/
def finalWithoutProof (c : ClientFirst) (sc : SASLContinue) : Octets :=
  ascii "c=" ++ Base64.encode c.gs2Header ++ ascii ",r=" ++ sc.nonce

def proof (hash : Hash) (password : Octets) (c : ClientFirst) (sc : SASLContinue) : Octets :=
  let key := clientKey hash (hash.hi password (base64ToOctetString sc.salt) sc.iterations)
  let message := c.bare ++ [comma] ++ sc.encode ++ [comma] ++ c.finalWithoutProof sc
  xor key (hash.hmac (hash.h key) message)

/-- The answer to the server's first message. -/
def final (hash : Hash) (password : Octets) (c : ClientFirst) (sc : SASLContinue) : Octets :=
  c.finalWithoutProof sc ++ ascii ",p=" ++ Base64.encode (c.proof hash password sc)

end ClientFirst

end MyDuck.Pg
