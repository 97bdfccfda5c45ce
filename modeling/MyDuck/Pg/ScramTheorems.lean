/-
MyDuck.Pg.ScramTheorems — who is let in by the SCRAM-SHA-256 exchange.

`rfc_client_accepted_iff`: a client of RFC 5802 that knows the password
is let in exactly when its first message has no authorization identity.
The server drops the `a=` in front of the identity when it reads the
message and prints the header without it.

`accepted_bound_iff`: a client that was let in is bound to the session
(channel binding data, nonce and a proof over the three messages) exactly
when its messages have the form of RFC 5802. The attributes of the final
message are checked where they occur, so one that does not occur is not
checked, and of its name only the first character is read.

Both rest on one reading of each message: `readSASLInitial_ok` and
`readSASLResponse_ok` say what a message that was accepted looks like.
-/
import MyDuck.Pg.Scram

namespace MyDuck.Pg

open Strings

/-! ## Octet strings -/

theorem xor_comm (a b : Octets) : xor a b = xor b a := by
  induction a generalizing b with
  | nil => simp [xor]
  | cons x xs ih =>
    cases b with
    | nil => simp [xor]
    | cons y ys =>
      have hrest := ih ys
      simp only [xor, List.zipWith_cons_cons] at hrest ⊢
      rw [hrest, UInt8.xor_comm]

theorem xor_length {a b : Octets} (h : a.length = b.length) : (xor a b).length = b.length := by
  simp [xor, h]

/-- A mask applied twice is gone. -/
theorem xor_cancel {a b : Octets} (h : a.length = b.length) : xor b (xor a b) = a := by
  induction a generalizing b with
  | nil => simp [xor]
  | cons x xs ih =>
    cases b with
    | nil => simp at h
    | cons y ys =>
      have hrest := ih (b := ys) (by simpa using h)
      simp only [xor, List.zipWith_cons_cons] at hrest ⊢
      rw [hrest, UInt8.xor_comm, UInt8.xor_assoc, UInt8.xor_self, UInt8.xor_zero]

theorem comma_not_mem_encode (s : Octets) : comma ∉ Base64.encode s :=
  Base64.not_mem_encode (by decide) (by decide) s

theorem base64ToOctetString_encode (s : Octets) : base64ToOctetString (Base64.encode s) = s := by
  simp [base64ToOctetString, Base64.decode_encode]

/-! ## Reading the first message -/

/-- The gs2 header of a first message: its first two sections. -/
def gs2HeaderOf (first : Octets) : Octets :=
  match first.splitOn comma with
  | flag :: authzid :: _ :: _ => flag ++ [comma] ++ authzid ++ [comma]
  | _ => []

def bareOf (first : Octets) : Octets := first.drop (gs2HeaderOf first).length

/-- The header has no authorization identity, and its flag is `n`, `y` or a
channel binding. -/
def PlainHeader (first : Octets) : Prop :=
  ∃ flag option options, first.splitOn comma = flag :: [] :: option :: options ∧
    (flag = ascii "n" ∨ flag = ascii "y" ∨ ascii "p=" <+: flag)

variable {flag printed value : Octets}

theorem gs2HeaderOf_append_bareOf {first authzid option : Octets} {options : List Octets}
    (h : first.splitOn comma = flag :: authzid :: option :: options) :
    gs2HeaderOf first ++ bareOf first = first := by
  have hjoin : [comma].intercalate (first.splitOn comma) = first := List.intercalate_splitOn comma
  rw [h, List.intercalate_cons_cons, List.intercalate_cons_cons] at hjoin
  have hheader : gs2HeaderOf first = flag ++ [comma] ++ authzid ++ [comma] := by
    simp [gs2HeaderOf, h]
  have hprefix : gs2HeaderOf first <+: first := by
    rw [hheader]
    exact ⟨_, by simpa using hjoin⟩
  exact (List.prefix_append_drop hprefix).symm

theorem readOption_frame {si si' : SASLInitial} {o : Octets} (h : readOption si o = .ok si') :
    si'.flag = si.flag ∧ si'.bindName = si.bindName ∧ si'.authzid = si.authzid := by
  unfold readOption at h
  split at h
  · split_ifs at h <;> cases h <;> exact ⟨rfl, rfl, rfl⟩
  · cases h

theorem readOptions_frame {options : List Octets} {si si' : SASLInitial}
    (h : options.foldlM readOption si = .ok si') :
    si'.flag = si.flag ∧ si'.bindName = si.bindName ∧ si'.authzid = si.authzid := by
  induction options generalizing si with
  | nil =>
    cases h
    exact ⟨rfl, rfl, rfl⟩
  | cons o os ih =>
    rw [List.foldlM_cons] at h
    obtain ⟨si₁, ho, hos⟩ := Strings.bind_eq_ok.mp h
    obtain ⟨hf, hb, ha⟩ := readOption_frame ho
    obtain ⟨hf', hb', ha'⟩ := ih hos
    exact ⟨hf'.trans hf, hb'.trans hb, ha'.trans ha⟩

/-- The flag that was read, as it is printed. -/
inductive FlagRead (flag : Octets) : SASLInitial → Octets → Prop
  | noClientSupport (h : flag.head? = some 110) :
      FlagRead flag { flag := some .noClientSupport } (ascii "n")
  | assumedNoServerSupport (h : flag.head? = some 121) :
      FlagRead flag { flag := some .assumedNoServerSupport } (ascii "y")
  | used (h : flag.head? = some 112) (hlen : 3 ≤ flag.length) :
      FlagRead flag { flag := some .used, bindName := flag.drop 2 } (ascii "p=" ++ flag.drop 2)

theorem readFlag_ok {si : SASLInitial} (h : readFlag flag = .ok si) :
    ∃ printed, FlagRead flag si printed := by
  unfold readFlag at h
  split at h
  · cases h
  · rename_i c rest
    split_ifs at h with hn hp hlen hy
    · cases h
      exact ⟨_, .noClientSupport (by simp [hn])⟩
    · cases h
      exact ⟨_, .used (by simp [hp]) (by omega)⟩
    · cases h
      exact ⟨_, .assumedNoServerSupport (by simp [hy])⟩

theorem FlagRead.length_le {si : SASLInitial} (h : FlagRead flag si printed) :
    printed.length ≤ flag.length := by
  cases h with
  | noClientSupport h =>
    cases flag with
    | nil => cases h
    | cons c rest => simp [ascii]
  | assumedNoServerSupport h =>
    cases flag with
    | nil => cases h
    | cons c rest => simp [ascii]
  | used h hlen =>
    simp only [ascii, List.length_append, List.length_drop]
    simp
    omega

/-- The flag is printed as it was sent when it is one of the three forms. -/
theorem FlagRead.eq_iff {si : SASLInitial} (h : FlagRead flag si printed) :
    printed = flag ↔ flag = ascii "n" ∨ flag = ascii "y" ∨ ascii "p=" <+: flag := by
  cases h with
  | noClientSupport h =>
    refine ⟨fun heq => .inl heq.symm, ?_⟩
    rintro (rfl | rfl | ⟨t, rfl⟩)
    · rfl
    · exact absurd h (by decide)
    · rw [show (ascii "p=" ++ t).head? = some 112 from rfl] at h
      exact absurd h (by decide)
  | assumedNoServerSupport h =>
    refine ⟨fun heq => .inr (.inl heq.symm), ?_⟩
    rintro (rfl | rfl | ⟨t, rfl⟩)
    · exact absurd h (by decide)
    · rfl
    · rw [show (ascii "p=" ++ t).head? = some 112 from rfl] at h
      exact absurd h (by decide)
  | used h hlen =>
    refine ⟨fun heq => .inr (.inr ⟨flag.drop 2, heq⟩), ?_⟩
    rintro (rfl | rfl | ⟨t, rfl⟩)
    · exact absurd hlen (by decide)
    · exact absurd hlen (by decide)
    · simp [ascii]

/-- The header that is printed: the flag, and the identity without its
first two characters. -/
theorem headerBytes_of_read {authzid : Octets} {si₁ si₂ si : SASLInitial}
    (hf : FlagRead flag si₁ printed) (ha : readAuthzid authzid si₁ = .ok si₂)
    (hflag : si.flag = si₂.flag) (hbind : si.bindName = si₂.bindName)
    (hauthzid : si.authzid = si₂.authzid) :
    si.headerBytes = printed ++ [comma] ++ authzid.drop 2 ++ [comma] ∧
      (authzid = [] ∨ 3 ≤ authzid.length) := by
  have hsi₂ : si₂.flag = si₁.flag ∧ si₂.bindName = si₁.bindName ∧ si₂.authzid = authzid.drop 2 ∧
      (authzid = [] ∨ 3 ≤ authzid.length) := by
    have hnone : si₁.authzid = [] := by cases hf <;> rfl
    unfold readAuthzid at ha
    split_ifs at ha with hempty hlen
    · cases ha
      exact ⟨rfl, rfl, by simp [hempty, hnone], .inl hempty⟩
    · cases ha
      exact ⟨rfl, rfl, rfl, .inr (by omega)⟩
  obtain ⟨hfl, hbn, haz, hlen⟩ := hsi₂
  refine ⟨?_, hlen⟩
  rw [SASLInitial.headerBytes, hflag, hfl, hbind, hbn, hauthzid, haz]
  cases hf <;> rfl

/-- A first message that was read: it is the header and the rest, and the
header that is printed for it is its own exactly when it is plain. -/
theorem readSASLInitial_ok {r : SASLInitialResponse} {si : SASLInitial}
    (h : readSASLInitial r = .ok si) :
    si.rawData = r.data ∧ gs2HeaderOf r.data ++ bareOf r.data = r.data ∧
      (si.headerBytes = gs2HeaderOf r.data ↔ PlainHeader r.data) := by
  unfold readSASLInitial at h
  split_ifs at h
  split at h
  · rename_i flag authzid option options hsplit
    obtain ⟨si₁, hf, h⟩ := Strings.bind_eq_ok.mp h
    obtain ⟨si₂, ha, h⟩ := Strings.bind_eq_ok.mp h
    obtain ⟨si₃, ho, h⟩ := Strings.bind_eq_ok.mp h
    split_ifs at h
    cases h
    obtain ⟨printed, hread⟩ := readFlag_ok hf
    obtain ⟨hflag, hbind, hauthzid⟩ := readOptions_frame ho
    obtain ⟨hheader, hlen⟩ := headerBytes_of_read hread ha hflag hbind hauthzid
    have hown : gs2HeaderOf r.data = flag ++ [comma] ++ authzid ++ [comma] := by
      simp [gs2HeaderOf, hsplit]
    refine ⟨rfl, gs2HeaderOf_append_bareOf hsplit, ?_⟩
    have hprinted : SASLInitial.headerBytes { si₃ with rawData := r.data }
        = printed ++ [comma] ++ authzid.drop 2 ++ [comma] := hheader
    rw [hprinted, hown]
    constructor
    · -- neither part is printed longer than it was sent, so both are as long
      intro heq
      have hlength := congrArg List.length heq
      have hle := hread.length_le
      simp only [List.length_append, List.length_drop] at hlength
      have hempty : authzid = [] := by
        rcases hlen with hempty | h3
        · exact hempty
        · omega
      subst hempty
      have hflageq : printed = flag := by simpa using heq
      exact ⟨flag, option, options, hsplit, hread.eq_iff.mp hflageq⟩
    · rintro ⟨flag', option', options', hsplit', hform⟩
      rw [hsplit] at hsplit'
      obtain ⟨rfl, hrest⟩ := List.cons.inj hsplit'
      obtain ⟨rfl, -⟩ := List.cons.inj hrest
      rw [hread.eq_iff.mpr hform, List.drop_nil]
  · cases h

/-! ## Reading the final message -/

/-- What one attribute does to the response that is read. -/
inductive Reads (header nonce : Octets) (sr : SASLResponse) : Octets → SASLResponse → Prop
  | header (e : UInt8) (h : header ≠ []) : Reads header nonce sr (99 :: e :: header)
      { sr with gs2Header := header }
  | proof (e : UInt8) (p : Octets) (h : p ≠ []) : Reads header nonce sr (112 :: e :: p)
      { sr with clientProof := p }
  | nonce (e : UInt8) (h : nonce ≠ []) : Reads header nonce sr (114 :: e :: nonce)
      { sr with nonce := nonce }

theorem readAttribute_reads {header nonce attr : Octets} {sr sr' : SASLResponse}
    (h : readAttribute header nonce sr attr = .ok sr') : Reads header nonce sr attr sr' := by
  unfold readAttribute at h
  split at h
  · rename_i c e v value
    split_ifs at h with hc hv hp hr hn
    · subst hc
      obtain rfl := not_not.mp hv
      cases h
      exact .header e (List.cons_ne_nil v value)
    · subst hp
      cases h
      exact .proof e _ (List.cons_ne_nil v value)
    · subst hr
      obtain rfl := not_not.mp hn
      cases h
      exact .nonce e (List.cons_ne_nil v value)
  · cases h

section

variable (hv : value ≠ []) (header nonce : Octets) (sr : SASLResponse)

include hv

theorem readAttribute_header :
    readAttribute header nonce sr (ascii "c=" ++ value)
      = if value = header then .ok { sr with gs2Header := value }
        else .error .inconsistentHeader := by
  obtain ⟨x, xs, rfl⟩ := List.exists_cons_of_ne_nil hv
  exact ite_not (x :: xs = header) _ _

theorem readAttribute_nonce :
    readAttribute header nonce sr (ascii "r=" ++ value)
      = if value = nonce then .ok { sr with nonce := value } else .error .nonceMismatch := by
  obtain ⟨x, xs, rfl⟩ := List.exists_cons_of_ne_nil hv
  exact ite_not (x :: xs = nonce) _ _

theorem readAttribute_proof :
    readAttribute header nonce sr (ascii "p=" ++ value) = .ok { sr with clientProof := value } := by
  obtain ⟨x, xs, rfl⟩ := List.exists_cons_of_ne_nil hv
  rfl

end

section Final

variable {header nonce : Octets} {parts : List Octets} {sr sr' : SASLResponse}

theorem readAttributes_append {last : Octets}
    (h : (parts ++ [last]).foldlM (readAttribute header nonce) sr = .ok sr') :
    ∃ sr₁, parts.foldlM (readAttribute header nonce) sr = .ok sr₁ ∧
      Reads header nonce sr₁ last sr' := by
  rw [List.foldlM_append] at h
  obtain ⟨sr₁, h₁, h₂⟩ := Strings.bind_eq_ok.mp h
  rw [List.foldlM_cons] at h₂
  obtain ⟨sr₂, hlast, hnil⟩ := Strings.bind_eq_ok.mp h₂
  cases hnil
  exact ⟨sr₁, h₁, readAttribute_reads hlast⟩

/-- Every attribute was read in some state. -/
theorem reads_of_mem (h : parts.foldlM (readAttribute header nonce) sr = .ok sr') {part : Octets}
    (hpart : part ∈ parts) : ∃ sr₁ sr₂, Reads header nonce sr₁ part sr₂ := by
  induction parts using List.reverseRecOn generalizing sr' with
  | nil => cases hpart
  | append_singleton ps last ih =>
    obtain ⟨sr₁, h₁, hlast⟩ := readAttributes_append h
    rcases List.mem_append.mp hpart with hps | hl
    · exact ih h₁ hps
    · exact ⟨sr₁, sr', List.mem_singleton.mp hl ▸ hlast⟩

/-- A response that was read: its parts were read one after the other, and
a proof in the last part is the one that is kept. -/
theorem readSASLResponse_ok {data : Octets} {sr : SASLResponse}
    (h : readSASLResponse header nonce data = .ok sr) :
    sr.rawData = data ∧ (∀ part ∈ data.splitOn comma, ∃ sr₁ sr₂, Reads header nonce sr₁ part sr₂) ∧
      ∀ last, (data.splitOn comma).getLast? = some last → ascii "p=" <+: last →
        ∃ withoutProof, data = withoutProof ++ ascii ",p=" ++ sr.clientProof ∧
          comma ∉ sr.clientProof := by
  unfold readSASLResponse at h
  obtain ⟨sr₁, hparts, h⟩ := Strings.bind_eq_ok.mp h
  split_ifs at h with hnonce hproof
  cases h
  refine ⟨rfl, fun part hpart => reads_of_mem hparts hpart, ?_⟩
  intro last hlast hp
  obtain ⟨init, hsplit⟩ := List.getLast?_eq_some_iff.mp hlast
  rw [hsplit] at hparts
  obtain ⟨sr₂, hinit, hread⟩ := readAttributes_append hparts
  obtain ⟨proof, rfl⟩ := hp
  -- the last part is a proof, so the nonce came before it
  have hkept : sr₁.clientProof = proof ∧ sr₁.nonce = sr₂.nonce := by
    cases hread
    exact ⟨rfl, rfl⟩
  have hne : init ≠ [] := by
    rintro rfl
    cases hinit
    exact hnonce hkept.2
  have hjoin : [comma].intercalate (data.splitOn comma) = data := List.intercalate_splitOn comma
  rw [hsplit, intercalate_append_singleton comma hne] at hjoin
  have hmem : ascii "p=" ++ proof ∈ data.splitOn comma := by
    rw [hsplit]
    exact List.mem_append_right _ (List.mem_singleton_self _)
  have hcomma : comma ∉ proof := fun hc =>
    not_mem_of_mem_splitOn hmem (List.mem_append_right _ hc)
  refine ⟨[comma].intercalate init, ?_, ?_⟩
  · rw [hkept.1, ← hjoin, List.append_assoc]
    rfl
  · rw [hkept.1]
    exact hcomma

end Final

/-- The proof is cut off where it stands. -/
theorem messageWithoutProof_eq {sr : SASLResponse} {withoutProof proof : Octets}
    (hraw : sr.rawData = withoutProof ++ ascii ",p=" ++ proof) (hproof : comma ∉ proof) :
    sr.messageWithoutProof = withoutProof := by
  have hlast : lastIndex (ascii ",p=") sr.rawData = some withoutProof.length := by
    rw [hraw, List.append_assoc]
    exact lastIndex_append (by decide) hproof withoutProof
  rw [SASLResponse.messageWithoutProof, hlast, hraw, List.append_assoc]
  simp

/-! ## The exchange -/

theorem authenticationOk_not_mem_fatal (code : String) (e : ScramError) :
    Reply.authenticationOk ∉ (fatal code e).sent := by
  simp [fatal]

theorem verifySASLClientProof_ok {hash : Hash} {role : Role} {si : SASLInitial} {sc : SASLContinue}
    {sr : SASLResponse} {signature : Octets}
    (h : verifySASLClientProof hash role si sc sr = .ok signature) :
    ∃ pw, role.password = some pw ∧
      hash.h (xor (base64ToOctetString sr.clientProof)
        (hash.hmac pw.storedKey (authMessage si sc sr))) = pw.storedKey := by
  unfold verifySASLClientProof at h
  cases hpw : role.password with
  | none => simp [hpw] at h
  | some pw =>
    simp only [hpw] at h
    split_ifs at h with hlogin hlen hkey
    refine ⟨pw, rfl, ?_⟩
    rw [xor_comm]
    exact not_not.mp hkey

section Exchange

variable {hash : Hash} {username serverNonce : Octets} {role : Role}

/-- The answer to a first message that was read. -/
def challenge (hash : Hash) (username serverNonce : Octets) (role : Role) (si : SASLInitial) :
    SASLContinue :=
  ⟨si.nonce ++ Base64.encode serverNonce, saltOf hash username role, iterations⟩

/-- The exchange behind the first message lets the client in on its next
message or not at all. -/
theorem authLoop_continue_ok {si : SASLInitial} {sc : SASLContinue} {messages : List ClientMessage}
    (h : Reply.authenticationOk ∈
      (authLoop hash username role serverNonce ⟨.saslContinue, si, sc⟩ messages).sent) :
    ∃ y final rest sr signature, messages = .password y final :: rest ∧
      readSASLResponse si.base64Header sc.nonce final = .ok sr ∧
      verifySASLClientProof hash role si sc sr = .ok signature := by
  cases messages with
  | nil => simp [authLoop] at h
  | cons m rest =>
    cases m with
    | other => simp [authLoop, receive] at h
    | password y final =>
      simp only [authLoop, receive] at h
      cases hread : readSASLResponse si.base64Header sc.nonce final with
      | error e =>
        simp only [hread] at h
        exact absurd h (authenticationOk_not_mem_fatal _ e)
      | ok sr =>
        simp only [hread] at h
        cases hverify : verifySASLClientProof hash role si sc sr with
        | error e =>
          simp only [hverify] at h
          exact absurd h (authenticationOk_not_mem_fatal _ e)
        | ok signature => exact ⟨y, final, rest, sr, signature, rfl, hread, hverify⟩

/-- A client is let in by two messages: a first one that is answered with
the challenge, and a final one with a valid proof. -/
theorem authLoop_ok {messages : List ClientMessage}
    (h : Reply.authenticationOk ∈ (authLoop hash username role serverNonce {} messages).sent) :
    ∃ first x y final rest si sr signature,
      messages = .password (some first) x :: .password y final :: rest ∧
      readSASLInitial first = .ok si ∧
      Reply.authenticationSASLContinue (challenge hash username serverNonce role si).encode
        ∈ (authLoop hash username role serverNonce {} messages).sent ∧
      readSASLResponse si.base64Header (challenge hash username serverNonce role si).nonce final
        = .ok sr ∧
      verifySASLClientProof hash role si (challenge hash username serverNonce role si) sr
        = .ok signature := by
  cases messages with
  | nil => simp [authLoop] at h
  | cons m rest =>
    cases m with
    | other => simp [authLoop, receive] at h
    | password initial x =>
      cases initial with
      | none => simp [authLoop, receive] at h
      | some first =>
        simp only [authLoop, receive, Option.map_some] at h ⊢
        cases hread : readSASLInitial first with
        | error e =>
          simp only [hread] at h
          exact absurd h (authenticationOk_not_mem_fatal _ e)
        | ok si =>
          simp only [hread, AuthResult.after, List.cons_append, List.nil_append,
            List.mem_cons, reduceCtorEq, false_or] at h
          obtain ⟨y, final, rest', sr, signature, rfl, hresponse, hverify⟩ :=
            authLoop_continue_ok h
          refine ⟨first, x, y, final, rest', si, sr, signature, rfl, hread, ?_, hresponse, hverify⟩
          simp only [AuthResult.after]
          exact List.mem_append_left _ (List.mem_singleton_self _)

end Exchange

/-! ## Who is let in is bound to the session -/

/-- The final message repeats the header of the first one and the nonce of
the session, and proves the key over the three messages. -/
def Bound (hash : Hash) (storedKey : Octets) (sc : SASLContinue) (first final : Octets) : Prop :=
  (∃ part ∈ final.splitOn comma, part = ascii "c=" ++ Base64.encode (gs2HeaderOf first)) ∧
  (∃ part ∈ final.splitOn comma, part = ascii "r=" ++ sc.nonce) ∧
  ∃ withoutProof proof, final = withoutProof ++ ascii ",p=" ++ proof ∧ comma ∉ proof ∧
    hash.h (xor (base64ToOctetString proof) (hash.hmac storedKey
      (bareOf first ++ [comma] ++ sc.encode ++ [comma] ++ withoutProof))) = storedKey

/-- The form of RFC 5802: no authorization identity, a channel binding
attribute, a nonce attribute, and the proof at the end. -/
def RfcForm (first final : Octets) : Prop :=
  PlainHeader first ∧ (∃ part ∈ final.splitOn comma, ascii "c=" <+: part) ∧
  (∃ part ∈ final.splitOn comma, ascii "r=" <+: part) ∧
  ∃ part, (final.splitOn comma).getLast? = some part ∧ ascii "p=" <+: part

section Bound

variable {hash : Hash} {role : Role} {first : SASLInitialResponse} {final signature : Octets}
  {si : SASLInitial} {sc : SASLContinue} {sr : SASLResponse}

/-- The messages of a bound client have the form. -/
theorem rfcForm_of_bound {storedKey : Octets} (hinitial : readSASLInitial first = .ok si)
    (hresponse : readSASLResponse si.base64Header sc.nonce final = .ok sr)
    (h : Bound hash storedKey sc first.data final) : RfcForm first.data final := by
  obtain ⟨⟨c, hc, rfl⟩, ⟨r, hr, rfl⟩, withoutProof, proof, hfinal, hcomma, -⟩ := h
  obtain ⟨-, -, hplain⟩ := readSASLInitial_ok hinitial
  obtain ⟨-, hreads, -⟩ := readSASLResponse_ok hresponse
  refine ⟨hplain.mp ?_, ⟨_, hc, List.prefix_append _ _⟩, ⟨_, hr, List.prefix_append _ _⟩, ?_⟩
  · obtain ⟨sr₁, sr₂, hread⟩ := hreads _ hc
    have hsame : Base64.encode (gs2HeaderOf first.data) = Base64.encode si.headerBytes := by
      generalize hheader : si.base64Header = header at hread
      cases hread
      exact hheader.symm
    exact (Base64.encode_injective hsame).symm
  · have hsplit : final.splitOn comma = withoutProof.splitOn comma ++ [ascii "p=" ++ proof] := by
      have hlast : comma ∉ ascii "p=" ++ proof := by
        simp only [List.mem_append, not_or]
        exact ⟨by decide, hcomma⟩
      rw [hfinal, List.append_assoc, show ascii ",p=" ++ proof = comma :: (ascii "p=" ++ proof)
        from rfl, List.splitOn_append_cons_self, List.splitOn_eq_singleton hlast]
    exact ⟨_, by rw [hsplit, List.getLast?_concat], List.prefix_append _ _⟩

/-- Messages of the form bind the client that sent them. -/
theorem bound_of_rfcForm {pw : ScramSha256Password} (hpw : role.password = some pw)
    (hinitial : readSASLInitial first = .ok si)
    (hresponse : readSASLResponse si.base64Header sc.nonce final = .ok sr)
    (hverify : verifySASLClientProof hash role si sc sr = .ok signature)
    (h : RfcForm first.data final) : Bound hash pw.storedKey sc first.data final := by
  obtain ⟨hplain, ⟨c, hc, hcform⟩, ⟨r, hr, hrform⟩, last, hlast, hpform⟩ := h
  obtain ⟨hraw, hwhole, hheader⟩ := readSASLInitial_ok hinitial
  obtain ⟨hrawfinal, hreads, hproof⟩ := readSASLResponse_ok hresponse
  have hown : si.headerBytes = gs2HeaderOf first.data := hheader.mpr hplain
  obtain ⟨withoutProof, hfinal, hcomma⟩ := hproof last hlast hpform
  refine ⟨⟨c, hc, ?_⟩, ⟨r, hr, ?_⟩, withoutProof, sr.clientProof, hfinal, hcomma, ?_⟩
  · obtain ⟨sr₁, sr₂, hread⟩ := hreads c hc
    obtain ⟨v, rfl⟩ := hcform
    rw [← hown]
    cases hread
    rfl
  · obtain ⟨sr₁, sr₂, hread⟩ := hreads r hr
    obtain ⟨v, rfl⟩ := hrform
    cases hread
    rfl
  · obtain ⟨pw', hpw', hkey⟩ := verifySASLClientProof_ok hverify
    obtain rfl : pw = pw' := Option.some.inj (hpw.symm.trans hpw')
    have hbare : si.messageBare = bareOf first.data := by
      rw [SASLInitial.messageBare, hraw, hown]
      nth_rewrite 1 [← hwhole]
      exact trimPrefix_append _ _
    have hwithout : sr.messageWithoutProof = withoutProof :=
      messageWithoutProof_eq (hrawfinal.trans hfinal) hcomma
    rw [authMessage, hbare, hwithout] at hkey
    exact hkey

end Bound

/-- **Who is let in.** With authentication on, a client that gets
AuthenticationOk sent two password messages, and it is bound to the
session of these exactly when they have the form of RFC 5802. -/
theorem accepted_bound_iff (srv : Server) (hauth : srv.enableAuthentication = true)
    (user : Option Octets) (serverNonce : Octets) (messages : List ClientMessage)
    (hok : Reply.authenticationOk ∈ (handleAuthentication srv user serverNonce messages).sent) :
    ∃ first x y final rest sc pw,
      messages = .password (some first) x :: .password y final :: rest ∧
      Reply.authenticationSASLContinue sc.encode
        ∈ (handleAuthentication srv user serverNonce messages).sent ∧
      Base64.encode serverNonce <:+ sc.nonce ∧
      (srv.getRole (startupUser user)).password = some pw ∧
      (Bound srv.hash pw.storedKey sc first.data final ↔ RfcForm first.data final) := by
  simp only [handleAuthentication, hauth, Bool.not_true, Bool.false_eq_true, if_false,
    AuthResult.after, List.mem_append, List.mem_singleton, reduceCtorEq, false_or] at hok ⊢
  obtain ⟨first, x, y, final, rest, si, sr, signature, rfl, hinitial, hsent, hresponse, hverify⟩ :=
    authLoop_ok hok
  obtain ⟨pw, hpw, -⟩ := verifySASLClientProof_ok hverify
  exact ⟨first, x, y, final, rest, _, pw, rfl, hsent, List.suffix_append _ _, hpw,
    rfcForm_of_bound hinitial hresponse, bound_of_rfcForm hpw hinitial hresponse hverify⟩

/-! ## A client of RFC 5802 -/

namespace ClientFirst

variable (c : ClientFirst)

theorem comma_not_mem_flag : comma ∉ c.flag := by
  unfold flag
  split <;> decide

theorem comma_not_mem_identity : comma ∉ c.identity := by
  unfold identity
  cases h : c.authzid with
  | none => exact List.not_mem_nil
  | some a =>
    have ha := (c.authzid_ok a h).2
    simp only [List.mem_append, not_or]
    exact ⟨by decide, ha⟩

theorem message_sections : c.message.data.splitOn comma
    = [c.flag, c.identity, ascii "n=" ++ c.username, ascii "r=" ++ c.nonce] := by
  have hname : comma ∉ ascii "n=" ++ c.username := by
    simp only [List.mem_append, not_or]
    exact ⟨by decide, c.username_ok⟩
  have hnonce : comma ∉ ascii "r=" ++ c.nonce := by
    simp only [List.mem_append, not_or]
    exact ⟨by decide, c.nonce_ok.2⟩
  have hdata : c.message.data = c.flag ++ comma :: (c.identity ++ comma ::
      ((ascii "n=" ++ c.username) ++ comma :: (ascii "r=" ++ c.nonce))) := by
    simp [message, gs2Header, bare, ascii, comma]
    decide
  rw [hdata, List.splitOn_append_cons_self_of_not_mem c.comma_not_mem_flag,
    List.splitOn_append_cons_self_of_not_mem c.comma_not_mem_identity,
    List.splitOn_append_cons_self_of_not_mem hname, List.splitOn_eq_singleton hnonce]

/-- What the server reads of the message. -/
def parsed : SASLInitial where
  flag := some (if c.assumesNoServerSupport then .assumedNoServerSupport else .noClientSupport)
  authzid := c.authzid.getD []
  username := c.username
  nonce := c.nonce
  rawData := c.message.data

theorem readSASLInitial_message : readSASLInitial c.message = .ok c.parsed := by
  have hflag : readFlag c.flag = .ok { flag := c.parsed.flag } := by
    unfold flag parsed
    cases c.assumesNoServerSupport <;> rfl
  have hidentity : readAuthzid c.identity { flag := c.parsed.flag }
      = .ok { flag := c.parsed.flag, authzid := c.authzid.getD [] } := by
    unfold identity
    cases h : c.authzid with
    | none => rfl
    | some a =>
      obtain ⟨x, xs, rfl⟩ := List.exists_cons_of_ne_nil (c.authzid_ok a h).1
      rfl
  have hoptions : [ascii "n=" ++ c.username, ascii "r=" ++ c.nonce].foldlM readOption
      { flag := c.parsed.flag, authzid := c.authzid.getD [] }
      = .ok { c.parsed with rawData := [] } := rfl
  have hmechanism : c.message.authMechanism = saslMechanism := rfl
  have hnonce : c.parsed.nonce ≠ [] := c.nonce_ok.1
  unfold readSASLInitial
  rw [if_neg (not_not.mpr hmechanism), message_sections]
  simp only [hflag, hidentity, hoptions, bind, Except.bind, if_neg hnonce]
  rfl

theorem parsed_headerBytes :
    c.parsed.headerBytes = c.flag ++ [comma] ++ c.authzid.getD [] ++ [comma] := by
  unfold flag parsed SASLInitial.headerBytes
  cases c.assumesNoServerSupport <;> rfl

/-- The header is printed as it was sent when there is no identity. -/
theorem parsed_headerBytes_eq_iff : c.parsed.headerBytes = c.gs2Header ↔ c.authzid = none := by
  rw [parsed_headerBytes, gs2Header, identity]
  cases c.authzid with
  | none => simp
  | some a =>
    simp only [Option.getD_some, reduceCtorEq, iff_false]
    intro heq
    have hlen := congrArg List.length heq
    simp [ascii] at hlen

variable (hash : Hash) (password : Octets) (sc : SASLContinue)

theorem final_sections (hnonce : comma ∉ sc.nonce) :
    (c.final hash password sc).splitOn comma
      = [ascii "c=" ++ Base64.encode c.gs2Header, ascii "r=" ++ sc.nonce,
          ascii "p=" ++ Base64.encode (c.proof hash password sc)] := by
  have hpart : ∀ {pre value : Octets}, comma ∉ pre → comma ∉ value → comma ∉ pre ++ value := by
    intro pre value hp hv
    simp [hp, hv]
  have hfinal : c.final hash password sc
      = (ascii "c=" ++ Base64.encode c.gs2Header) ++ comma :: ((ascii "r=" ++ sc.nonce) ++ comma ::
          (ascii "p=" ++ Base64.encode (c.proof hash password sc))) := by
    simp only [final, finalWithoutProof, List.append_assoc]
    rfl
  rw [hfinal, List.splitOn_append_cons_self_of_not_mem (hpart (by decide) (comma_not_mem_encode _)),
    List.splitOn_append_cons_self_of_not_mem (hpart (by decide) hnonce),
    List.splitOn_eq_singleton (hpart (by decide) (comma_not_mem_encode _))]

theorem proof_length : (c.proof hash password sc).length = 32 := by
  unfold proof clientKey
  rw [xor_length, hash.hmac_length]
  rw [hash.hmac_length, hash.hmac_length]

/-- What the server reads of the final message. -/
def parsedFinal : SASLResponse where
  gs2Header := Base64.encode c.gs2Header
  nonce := sc.nonce
  clientProof := Base64.encode (c.proof hash password sc)
  rawData := c.final hash password sc

theorem parsedFinal_messageWithoutProof :
    (c.parsedFinal hash password sc).messageWithoutProof = c.finalWithoutProof sc :=
  messageWithoutProof_eq rfl (comma_not_mem_encode _)

/-- The server reads the final message when it expects the header the
client sent, and refuses it otherwise. -/
theorem readSASLResponse_final (hnonce : sc.nonce ≠ []) (hcomma : comma ∉ sc.nonce)
    (header : Octets) :
    readSASLResponse (Base64.encode header) sc.nonce (c.final hash password sc)
      = if header = c.gs2Header then .ok (c.parsedFinal hash password sc)
        else .error .inconsistentHeader := by
  have hheader : Base64.encode c.gs2Header ≠ [] := Base64.encode_ne_nil (by simp [gs2Header])
  have hproof : Base64.encode (c.proof hash password sc) ≠ [] := by
    refine Base64.encode_ne_nil fun hnil => ?_
    have hlen := c.proof_length hash password sc
    rw [hnil] at hlen
    cases hlen
  have hsame : Base64.encode c.gs2Header = Base64.encode header ↔ header = c.gs2Header :=
    ⟨fun h => (Base64.encode_injective h).symm, fun h => h ▸ rfl⟩
  unfold readSASLResponse
  simp only [c.final_sections hash password sc hcomma, List.foldlM_cons, List.foldlM_nil,
    readAttribute_header hheader, readAttribute_nonce hnonce, readAttribute_proof hproof, hsame]
  by_cases heq : header = c.gs2Header
  · simp [heq, bind, Except.bind, pure, Except.pure, hnonce, hproof, parsedFinal]
  · simp [heq, bind, Except.bind]

/-- The proof of a client with the password is accepted. -/
theorem verifySASLClientProof_final {role : Role} {salt : Octets} (hlogin : role.canLogin = true)
    (hpw : role.password = some (newScramSha256Password hash password salt)) {si : SASLInitial}
    (hbare : si.messageBare = c.bare) (hsalt : sc.salt = Base64.encode salt)
    (hiter : sc.iterations = iterations) :
    ∃ signature, verifySASLClientProof hash role si sc (c.parsedFinal hash password sc)
      = .ok signature := by
  unfold verifySASLClientProof
  have hmessage : authMessage si sc (c.parsedFinal hash password sc)
      = c.bare ++ [comma] ++ sc.encode ++ [comma] ++ c.finalWithoutProof sc := by
    rw [authMessage, hbare, parsedFinal_messageWithoutProof]
  have hkey : clientKey hash (hash.hi password (base64ToOctetString sc.salt) sc.iterations)
      = clientKey hash (hash.hi password salt iterations) := by
    rw [hsalt, base64ToOctetString_encode, hiter]
  have hread : base64ToOctetString (c.parsedFinal hash password sc).clientProof
      = c.proof hash password sc := base64ToOctetString_encode _
  -- the mask of the client is the signature the server computes
  have hcancel : xor (hash.hmac (hash.h (clientKey hash (hash.hi password salt iterations)))
      (authMessage si sc (c.parsedFinal hash password sc))) (c.proof hash password sc)
      = clientKey hash (hash.hi password salt iterations) := by
    rw [proof, hkey, hmessage]
    exact xor_cancel (by rw [clientKey, hash.hmac_length, hash.hmac_length])
  simp [hpw, hlogin, hread, newScramSha256Password, hash.hmac_length, proof_length, hcancel]

/-- The first part of the message is the header the server prints, and the
rest is what it keeps, exactly when there is no identity. -/
theorem parsed_iff : c.parsed.headerBytes = c.gs2Header ∧ c.parsed.messageBare = c.bare ↔
    c.authzid = none := by
  refine ⟨fun h => c.parsed_headerBytes_eq_iff.mp h.1, fun h => ?_⟩
  have hheader := c.parsed_headerBytes_eq_iff.mpr h
  refine ⟨hheader, ?_⟩
  rw [SASLInitial.messageBare, hheader]
  exact trimPrefix_append c.gs2Header c.bare

end ClientFirst

/-! ## The conversation of such a client with the server -/

namespace ClientFirst

variable (c : ClientFirst) (srv : Server) (user : Option Octets) (serverNonce : Octets)

/-- What the server answers to the first message. -/
def challenged : SASLContinue :=
  challenge srv.hash (startupUser user) serverNonce (srv.getRole (startupUser user)) c.parsed

/-- The replies of the server to the two messages of the client. -/
def converse (password : Octets) : List Reply :=
  (handleAuthentication srv user serverNonce [.password (some c.message) [],
    .password none (c.final srv.hash password (c.challenged srv user serverNonce))]).sent

theorem challenged_nonce : (c.challenged srv user serverNonce).nonce ≠ [] ∧
    comma ∉ (c.challenged srv user serverNonce).nonce := by
  simp only [challenged, challenge, parsed, List.mem_append, not_or]
  refine ⟨?_, c.nonce_ok.2, comma_not_mem_encode _⟩
  simp [c.nonce_ok.1]

theorem challenged_salt {pw : ScramSha256Password}
    (hpw : (srv.getRole (startupUser user)).password = some pw) :
    (c.challenged srv user serverNonce).salt = Base64.encode pw.salt := by
  simp [challenged, challenge, saltOf, hpw]

theorem converse_eq (hauth : srv.enableAuthentication = true) (password : Octets) :
    c.converse srv user serverNonce password
      = [.authenticationSASL [saslMechanism],
          .authenticationSASLContinue (c.challenged srv user serverNonce).encode] ++
        (authLoop srv.hash (startupUser user) (srv.getRole (startupUser user)) serverNonce
          ⟨.saslContinue, c.parsed, c.challenged srv user serverNonce⟩
          [.password none
            (c.final srv.hash password (c.challenged srv user serverNonce))]).sent := by
  simp only [converse, handleAuthentication, hauth, authLoop, receive, Option.map_some,
    c.readSASLInitial_message, AuthResult.after]
  rfl

/-- With the header as it was sent, the final message lets the client in. -/
theorem authLoop_final {password salt : Octets}
    (hlogin : (srv.getRole (startupUser user)).canLogin = true)
    (hpw : (srv.getRole (startupUser user)).password
      = some (newScramSha256Password srv.hash password salt)) :
    Reply.authenticationOk ∈ (authLoop srv.hash (startupUser user) (srv.getRole (startupUser user))
        serverNonce ⟨.saslContinue, c.parsed, c.challenged srv user serverNonce⟩
        [.password none (c.final srv.hash password (c.challenged srv user serverNonce))]).sent ↔
      c.parsed.headerBytes = c.gs2Header := by
  obtain ⟨hnonce, hcomma⟩ := c.challenged_nonce srv user serverNonce
  have hread := c.readSASLResponse_final srv.hash password _ hnonce hcomma c.parsed.headerBytes
  by_cases hheader : c.parsed.headerBytes = c.gs2Header
  · have hbare := (c.parsed_iff.mpr (c.parsed_headerBytes_eq_iff.mp hheader)).2
    obtain ⟨signature, hverify⟩ := c.verifySASLClientProof_final srv.hash password
      (c.challenged srv user serverNonce) hlogin hpw hbare
      (c.challenged_salt srv user serverNonce hpw) rfl
    rw [if_pos hheader, hheader] at hread
    simp [authLoop, receive, SASLInitial.base64Header, hheader, hread, hverify]
  · rw [if_neg hheader] at hread
    simp [authLoop, receive, SASLInitial.base64Header, hread, hheader, fatal]

end ClientFirst

/-- **A client of RFC 5802 that knows the password.** The server reads its
first message and answers with the challenge. It prints the header it was
sent, keeps the rest of the message and lets the client in, exactly when
the message has no authorization identity. -/
theorem rfc_client_accepted_iff (srv : Server) (hauth : srv.enableAuthentication = true)
    (user : Option Octets) (password salt : Octets)
    (hlogin : (srv.getRole (startupUser user)).canLogin = true)
    (hpw : (srv.getRole (startupUser user)).password
      = some (newScramSha256Password srv.hash password salt))
    (serverNonce : Octets) (c : ClientFirst) :
    Reply.authenticationSASLContinue (c.challenged srv user serverNonce).encode
        ∈ c.converse srv user serverNonce password ∧
      (∃ si, readSASLInitial c.message = .ok si ∧
        (si.headerBytes = c.gs2Header ∧ si.messageBare = c.bare ↔ c.authzid = none)) ∧
      (Reply.authenticationOk ∈ c.converse srv user serverNonce password ↔ c.authzid = none) := by
  rw [c.converse_eq srv user serverNonce hauth password]
  refine ⟨by simp, ⟨c.parsed, c.readSASLInitial_message, c.parsed_iff⟩, ?_⟩
  rw [← c.parsed_headerBytes_eq_iff, ← c.authLoop_final srv user serverNonce hlogin hpw]
  simp

/-! ### Samples -/

def sampleHash : Hash where
  h := id
  hmac := fun key message => (List.range 32).map fun i =>
    UInt8.ofNat (i + (key.map UInt8.toNat).sum + (message.map UInt8.toNat).sum)
  hi := fun password salt _ => password ++ salt
  hmac_length := by simp

def sampleServer : Server := initSuperuser sampleHash (ascii "secret") (ascii "salt")

def sampleFirst (authzid : Option Octets) (h : ∀ a ∈ authzid, a ≠ [] ∧ comma ∉ a) : ClientFirst :=
  ⟨true, authzid, ascii "u", ascii "abc", h, by decide, by decide⟩

theorem rfc_client_accepted_iff_sample :
    (sampleServer.getRole (startupUser none)).canLogin = true ∧
      Reply.authenticationOk ∈ (sampleFirst none (by decide)).converse sampleServer none [1, 2]
        (ascii "secret") := by
  refine ⟨rfl, ?_⟩
  exact (rfc_client_accepted_iff sampleServer rfl none (ascii "secret") (ascii "salt") rfl rfl
    [1, 2] (sampleFirst none (by decide))).2.2.mpr rfl

/-- With an identity the server expects another header, and the client is
refused. -/
theorem authorization_identity_refused :
    (sampleFirst (some (ascii "adm")) (by decide)).gs2Header = ascii "y,a=adm," ∧
      (sampleFirst (some (ascii "adm")) (by decide)).parsed.headerBytes = ascii "y,adm," ∧
      readSASLInitial (sampleFirst (some (ascii "adm")) (by decide)).message
        = .ok (sampleFirst (some (ascii "adm")) (by decide)).parsed ∧
      Reply.authenticationOk ∉ (sampleFirst (some (ascii "adm")) (by decide)).converse sampleServer
        none [1, 2] (ascii "secret") := by
  decide

/-- The nonce of the session of the samples. -/
def sampleChallenge : SASLContinue :=
  ⟨ascii "abc" ++ Base64.encode [1, 2], Base64.encode (ascii "salt"), iterations⟩

/-- A client that knows the password and signs the final message without
the proof as it likes. -/
def signedFinal (bare withoutProof : Octets) : Octets :=
  let key := clientKey sampleHash (ascii "secret" ++ ascii "salt")
  withoutProof ++ ascii ",p=" ++ Base64.encode (xor key (sampleHash.hmac key
    (bare ++ [comma] ++ sampleChallenge.encode ++ [comma] ++ withoutProof)))

def sampleMessages (first final : Octets) : List ClientMessage :=
  [.password (some ⟨saslMechanism, first⟩) [], .password none final]

theorem accepted_bound_iff_sample :
    ∃ first x y final rest sc pw,
      sampleMessages (ascii "n,,n=u,r=abc") (signedFinal (ascii "n=u,r=abc")
        (ascii "c=biws,r=" ++ sampleChallenge.nonce))
          = .password (some first) x :: .password y final :: rest ∧
      Reply.authenticationSASLContinue sc.encode
        ∈ (handleAuthentication sampleServer none [1, 2] (sampleMessages (ascii "n,,n=u,r=abc")
          (signedFinal (ascii "n=u,r=abc") (ascii "c=biws,r=" ++ sampleChallenge.nonce)))).sent ∧
      Base64.encode [1, 2] <:+ sc.nonce ∧
      (sampleServer.getRole (startupUser none)).password = some pw ∧
      (Bound sampleHash pw.storedKey sc first.data final ↔ RfcForm first.data final) :=
  accepted_bound_iff sampleServer rfl none [1, 2] _ (by decide)

/-- A final message without the `c=` attribute is accepted, and so is one
with the header the server prints instead of the one the client sent. -/
theorem unbound_client_accepted :
    Reply.authenticationOk ∈ (handleAuthentication sampleServer none [1, 2]
        (sampleMessages (ascii "n,,n=u,r=abc")
          (signedFinal (ascii "n=u,r=abc") (ascii "r=" ++ sampleChallenge.nonce)))).sent ∧
      (∀ part ∈ (signedFinal (ascii "n=u,r=abc") (ascii "r=" ++ sampleChallenge.nonce)).splitOn
        comma, ¬ ascii "c=" <+: part) ∧
      Reply.authenticationOk ∈ (handleAuthentication sampleServer none [1, 2]
        (sampleMessages (ascii "n,a=adm,n=u,r=abc")
          (signedFinal (ascii "n,a=adm,n=u,r=abc")
            (ascii "c=" ++ Base64.encode (ascii "n,adm,") ++ ascii ",r=" ++
              sampleChallenge.nonce)))).sent ∧
      gs2HeaderOf (ascii "n,a=adm,n=u,r=abc") = ascii "n,a=adm," := by
  decide

end MyDuck.Pg
