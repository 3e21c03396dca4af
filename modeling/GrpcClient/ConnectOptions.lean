import Mathlib.Logic.Function.Basic
import GrpcClient.Lib.Except
import GrpcClient.TaskQueue

/-! # The options of a connection

How the options of `resty.grpc.connect` get through `DialOpt` and `ConnectOption`
to the credentials that `Connect` of `conn/grpc.go` dials with.
-/

namespace GrpcClient.Conn

open Fallible

/-- The files and what `crypto/tls` and `crypto/x509` make of them. -/
structure Crypto where
  Chain : Type
  Key : Type
  Cert : Type
  Pool : Type
  readFile : String → Except String String
  parseChain : String → Except String Chain
  parseKey : String → Except String Key
  pair : Chain → Key → Except String Cert
  appendCerts : String → Option Pool

/-- The option table. A field that is nil is `none`. -/
structure ConnectOpt where
  insecure : Option Bool
  tlsVerify : Option Bool
  maxRecvMsgSize : Option Int
  clientCert : Option String
  clientKey : Option String
  trustedCa : Option String
deriving DecidableEq, Repr

structure DialOpt where
  insecure : Bool
  tlsVerify : Bool
  maxRecvMsgSize : Int
  clientCert : String
  clientKey : String
  trustedCa : String

/-- What `_M.connect` fills in. A string of length zero stands for a field that
was left out. -/
def dialOpt (opt : ConnectOpt) : DialOpt where
  insecure := if opt.insecure = some false then false else true
  tlsVerify := if opt.tlsVerify = some false then false else true
  maxRecvMsgSize :=
    match opt.maxRecvMsgSize with
    | some size => if size > 2147483647 then 2147483647 else size
    | none => 0
  clientCert := opt.clientCert.getD ""
  clientKey := opt.clientKey.getD ""
  trustedCa := opt.trustedCa.getD ""

structure ConnectOption where
  insecure : Bool
  tlsVerify : Bool
  maxRecvMsgSize : Int
  clientCertFile : String
  clientKeyFile : String
  trustedCA : String

def connectOption (opt : DialOpt) : ConnectOption :=
  ⟨opt.insecure, opt.tlsVerify, opt.maxRecvMsgSize, opt.clientCert, opt.clientKey, opt.trustedCa⟩

structure TlsConfig (C : Crypto) where
  insecureSkipVerify : Bool
  rootCAs : Option C.Pool
  certificates : List C.Cert

inductive Credentials (C : Crypto)
  | insecure
  | tls (tc : TlsConfig C)

/-- Timeout in seconds. -/
structure DialOptions (C : Crypto) where
  timeout : Nat
  maxMsgSize : Option Int
  credentials : Credentials C

variable {C : Crypto}

def Crypto.loadX509KeyPair (C : Crypto) (certFile keyFile : String) : Except String C.Cert := do
  let certPem ← C.readFile certFile
  let keyPem ← C.readFile keyFile
  let chain ← C.parseChain certPem
  let key ← C.parseKey keyPem
  C.pair chain key

def Crypto.certPool (C : Crypto) (file : String) : Except String C.Pool := do
  let trustedCA ← C.readFile file
  match C.appendCerts trustedCA with
  | some pool => .ok pool
  | none => .error ("failed to append trusted certificate to certificate pool. " ++ trustedCA)

def Crypto.rootCAs (C : Crypto) (trustedCA : String) : Except String (Option C.Pool) :=
  if trustedCA ≠ "" then do
    let caPool ← C.certPool trustedCA
    .ok (some caPool)
  else .ok none

/-- The TLS branch of `Connect`. The CA is read only beside a client certificate. -/
def tlsConfig (C : Crypto) (opt : ConnectOption) : Except String (TlsConfig C) :=
  if opt.clientCertFile ≠ "" ∧ opt.clientKeyFile ≠ "" then do
    let tlsCert ← C.loadX509KeyPair opt.clientCertFile opt.clientKeyFile
    let rootCAs ← C.rootCAs opt.trustedCA
    .ok ⟨!opt.tlsVerify, rootCAs, [tlsCert]⟩
  else .ok ⟨!opt.tlsVerify, none, []⟩

/-- `grpc.Dial`: its answer is an error or nothing, and the options stand for the
connection. -/
def dialWith (dial : String → DialOptions C → Option String) (target : String)
    (opts : DialOptions C) : Except String (DialOptions C) :=
  match dial target opts with
  | some err => .error err
  | none => .ok opts

def connect (dial : String → DialOptions C → Option String) (target : String)
    (opt : ConnectOption) : Except String (DialOptions C) :=
  let maxMsgSize := if opt.maxRecvMsgSize ≠ 0 then some opt.maxRecvMsgSize else none
  if opt.insecure then dialWith dial target ⟨60, maxMsgSize, .insecure⟩
  else do
    let tc ← tlsConfig C opt
    dialWith dial target ⟨60, maxMsgSize, .tls tc⟩

def utf8 (s : String) : Bytes := s.toUTF8.data.toList

def errBufSize : Nat := 512

/-- `reportErr`: what it leaves in `err_buf`. -/
def reportErr (err : String) : Bytes :=
  if (utf8 err).length > errBufSize - 1 then (utf8 err).take (errBufSize - 1) else utf8 err

theorem reportErr_fits (err : String) : (reportErr err).length < errBufSize := by
  unfold reportErr errBufSize
  split
  · rw [List.length_take]
    omega
  · omega

/-- `_M.connect`, down to the engine. -/
def luaConnect (dial : String → DialOptions C → Option String) (target : String)
    (opt : ConnectOpt) : Except Bytes (DialOptions C) :=
  if opt.clientCert.isNone ≠ opt.clientKey.isNone then
    .error (utf8 ("client_cert and client_key must both be present or both absent: cert: " ++
      opt.clientCert.getD "" ++ " key: " ++ opt.clientKey.getD ""))
  else (connect dial target (connectOption (dialOpt opt))).mapError reportErr

/-! ## What the options promise -/

def given (path : Option String) : Prop := path.getD "" ≠ ""

instance (path : Option String) : Decidable (given path) :=
  inferInstanceAs (Decidable (_ ≠ _))

/-- Every given file can be read and parsed. -/
structure Crypto.Usable (C : Crypto) (opt : ConnectOpt) : Prop where
  trustedCa : given opt.trustedCa → ∃ pool, C.certPool (opt.trustedCa.getD "") = .ok pool
  clientCert : given opt.clientCert →
    ∃ chain, C.readFile (opt.clientCert.getD "") >>= C.parseChain = .ok chain
  clientKey : given opt.clientKey →
    ∃ key, C.readFile (opt.clientKey.getD "") >>= C.parseKey = .ok key

structure TlsConfig.Follows (tc : TlsConfig C) (opt : ConnectOpt) : Prop where
  verify : tc.insecureSkipVerify = true ↔ opt.tlsVerify = some false
  roots : given opt.trustedCa →
    ∃ pool, C.certPool (opt.trustedCa.getD "") = .ok pool ∧ tc.rootCAs = some pool
  systemRoots : ¬ given opt.trustedCa → tc.rootCAs = none
  presented : given opt.clientCert → given opt.clientKey →
    ∃ cert, C.loadX509KeyPair (opt.clientCert.getD "") (opt.clientKey.getD "") = .ok cert ∧
      tc.certificates = [cert]
  anonymous : ¬ (given opt.clientCert ∧ given opt.clientKey) → tc.certificates = []

structure Honoured (dial : String → DialOptions C → Option String) (target : String)
    (opt : ConnectOpt) : Prop where
  plaintext : ∀ conn, luaConnect dial target opt = .ok conn →
    (conn.credentials = .insecure ↔ opt.insecure ≠ some false)
  tls : ∀ conn tc, luaConnect dial target opt = .ok conn → conn.credentials = .tls tc →
    tc.Follows opt
  files : ∀ conn, opt.insecure = some false → luaConnect dial target opt = .ok conn →
    C.Usable opt

/-- What a TLS connection without a client certificate is dialled with. -/
def bareOptions (C : Crypto) (opt : ConnectOpt) : DialOptions C where
  timeout := 60
  maxMsgSize :=
    if (dialOpt opt).maxRecvMsgSize ≠ 0 then some (dialOpt opt).maxRecvMsgSize else none
  credentials := .tls ⟨!(dialOpt opt).tlsVerify, none, []⟩

/-- The connection is plaintext, or refused before the engine, or there is a client
certificate, or there is no CA and no unusable file, or the connection cannot be
dialled. -/
def Honourable (dial : String → DialOptions C → Option String) (target : String)
    (opt : ConnectOpt) : Prop :=
  opt.insecure ≠ some false ∨ opt.clientCert.isNone ≠ opt.clientKey.isNone ∨
  (given opt.clientCert ∧ given opt.clientKey) ∨ (¬ given opt.trustedCa ∧ C.Usable opt) ∨
  dial target (bareOptions C opt) ≠ none

section Connect

variable {dial : String → DialOptions C → Option String} {target : String} {opt : ConnectOpt}
  {conn : DialOptions C}

theorem dialWith_ok {opts : DialOptions C} (h : dialWith dial target opts = .ok conn) :
    conn = opts := by
  unfold dialWith at h
  split at h
  · cases h
  · cases h
    rfl

theorem luaConnect_refused (h : opt.clientCert.isNone ≠ opt.clientKey.isNone) :
    luaConnect dial target opt ≠ .ok conn := by
  intro hOk
  rw [luaConnect, if_pos h] at hOk
  cases hOk

theorem luaConnect_plaintext (hPlain : opt.insecure ≠ some false)
    (h : luaConnect dial target opt = .ok conn) : conn.credentials = .insecure := by
  rw [luaConnect] at h
  split at h
  · cases h
  · have hConnect := mapError_eq_ok.mp h
    simp only [connect, connectOption, dialOpt, hPlain, if_false, if_true] at hConnect
    rw [dialWith_ok hConnect]

theorem luaConnect_tls (hTls : opt.insecure = some false)
    (hSides : opt.clientCert.isNone = opt.clientKey.isNone) :
    luaConnect dial target opt = Except.mapError reportErr (do
      let tc ← tlsConfig C (connectOption (dialOpt opt))
      dialWith dial target { bareOptions C opt with credentials := .tls tc }) := by
  have hInsecure : (connectOption (dialOpt opt)).insecure = false := by
    simp [connectOption, dialOpt, hTls]
  rw [luaConnect, if_neg (not_not.mpr hSides), connect]
  simp only [hInsecure]
  rfl

/-- Without a client certificate, whatever the trusted CA. -/
theorem luaConnect_bare (hTls : opt.insecure = some false)
    (hSides : opt.clientCert.isNone = opt.clientKey.isNone)
    (hNone : ¬ (given opt.clientCert ∧ given opt.clientKey)) :
    luaConnect dial target opt = (dialWith dial target (bareOptions C opt)).mapError reportErr := by
  have hFiles : ¬ ((connectOption (dialOpt opt)).clientCertFile ≠ "" ∧
      (connectOption (dialOpt opt)).clientKeyFile ≠ "") := hNone
  rw [luaConnect_tls hTls hSides, tlsConfig, if_neg hFiles]
  rfl

theorem skipVerify_iff : (!(connectOption (dialOpt opt)).tlsVerify) = true ↔
    opt.tlsVerify = some false := by
  simp [connectOption, dialOpt]

theorem loadX509KeyPair_ok {certFile keyFile : String} {cert : C.Cert}
    (h : C.loadX509KeyPair certFile keyFile = .ok cert) :
    (∃ chain, C.readFile certFile >>= C.parseChain = .ok chain) ∧
    ∃ key, C.readFile keyFile >>= C.parseKey = .ok key := by
  obtain ⟨certPem, hCert, h⟩ := bind_eq_ok h
  obtain ⟨keyPem, hKey, h⟩ := bind_eq_ok h
  obtain ⟨chain, hChain, h⟩ := bind_eq_ok h
  obtain ⟨key, hParsed, -⟩ := bind_eq_ok h
  refine ⟨⟨chain, ?_⟩, key, ?_⟩
  · rw [hCert]
    exact hChain
  · rw [hKey]
    exact hParsed

theorem rootCAs_ok {roots : Option C.Pool}
    (h : C.rootCAs (opt.trustedCa.getD "") = .ok roots) :
    (given opt.trustedCa →
      ∃ pool, C.certPool (opt.trustedCa.getD "") = .ok pool ∧ roots = some pool) ∧
    (¬ given opt.trustedCa → roots = none) := by
  unfold Crypto.rootCAs at h
  split at h
  · rename_i hGiven
    obtain ⟨pool, hPool, h⟩ := bind_eq_ok h
    cases h
    exact ⟨fun _ => ⟨pool, hPool, rfl⟩, fun hNot => absurd hGiven hNot⟩
  · rename_i hNot
    cases h
    exact ⟨fun hGiven => absurd hGiven hNot, fun _ => rfl⟩

theorem tlsConfig_follows {tc : TlsConfig C}
    (hBoth : given opt.clientCert ∧ given opt.clientKey)
    (h : tlsConfig C (connectOption (dialOpt opt)) = .ok tc) : tc.Follows opt ∧ C.Usable opt := by
  have hFiles : (connectOption (dialOpt opt)).clientCertFile ≠ "" ∧
      (connectOption (dialOpt opt)).clientKeyFile ≠ "" := hBoth
  rw [tlsConfig, if_pos hFiles] at h
  obtain ⟨cert, hPair, h⟩ := bind_eq_ok h
  obtain ⟨roots, hRoots, h⟩ := bind_eq_ok h
  cases h
  obtain ⟨hCert, hKey⟩ := loadX509KeyPair_ok hPair
  obtain ⟨hPool, hSystem⟩ := rootCAs_ok hRoots
  constructor
  · exact ⟨skipVerify_iff, hPool, hSystem, fun _ _ => ⟨cert, hPair, rfl⟩,
      fun hNot => absurd hBoth hNot⟩
  · refine ⟨fun hGiven => ?_, fun _ => hCert, fun _ => hKey⟩
    obtain ⟨pool, hOk, -⟩ := hPool hGiven
    exact ⟨pool, hOk⟩

theorem bareOptions_follows (hCa : ¬ given opt.trustedCa)
    (hNone : ¬ (given opt.clientCert ∧ given opt.clientKey)) :
    TlsConfig.Follows (C := C) ⟨!(dialOpt opt).tlsVerify, none, []⟩ opt :=
  ⟨skipVerify_iff, fun hGiven => absurd hGiven hCa, fun _ => rfl,
    fun hCert hKey => absurd ⟨hCert, hKey⟩ hNone, fun _ => rfl⟩

theorem Honoured.of_error (h : ∀ conn, luaConnect dial target opt ≠ .ok conn) :
    Honoured dial target opt :=
  ⟨fun conn hOk => absurd hOk (h conn), fun conn _ hOk => absurd hOk (h conn),
    fun conn _ hOk => absurd hOk (h conn)⟩

theorem Honoured.of_tls (hTls : opt.insecure = some false)
    (h : ∀ conn, luaConnect dial target opt = .ok conn →
      ∃ tc, conn.credentials = .tls tc ∧ tc.Follows opt ∧ C.Usable opt) :
    Honoured dial target opt := by
  refine ⟨fun conn hOk => ?_, fun conn tc hOk hCreds => ?_, fun conn _ hOk => ?_⟩
  · obtain ⟨tc, hCreds, -⟩ := h conn hOk
    simp [hCreds, hTls]
  · obtain ⟨tc', hCreds', hFollows, -⟩ := h conn hOk
    rw [hCreds'] at hCreds
    cases hCreds
    exact hFollows
  · obtain ⟨tc, -, -, hUsable⟩ := h conn hOk
    exact hUsable

theorem options_honoured (dial : String → DialOptions C → Option String) (target : String)
    (opt : ConnectOpt) : Honoured dial target opt ↔ Honourable dial target opt := by
  constructor
  · intro h
    by_contra hNot
    simp only [Honourable, not_or, not_not] at hNot
    obtain ⟨hTls, hSides, hNone, hCa, hDial⟩ := hNot
    have hOk : luaConnect dial target opt = .ok (bareOptions C opt) := by
      rw [luaConnect_bare hTls hSides hNone, dialWith, hDial]
      rfl
    by_cases hGiven : given opt.trustedCa
    · obtain ⟨pool, -, hRoots⟩ := (h.tls _ _ hOk rfl).roots hGiven
      cases hRoots
    · exact hCa ⟨hGiven, h.files _ hTls hOk⟩
  · intro h
    by_cases hTls : opt.insecure = some false
    · by_cases hSides : opt.clientCert.isNone = opt.clientKey.isNone
      · by_cases hBoth : given opt.clientCert ∧ given opt.clientKey
        · refine .of_tls hTls fun conn hOk => ?_
          rw [luaConnect_tls hTls hSides, mapError_eq_ok] at hOk
          obtain ⟨tc, hConfig, hDial⟩ := bind_eq_ok hOk
          obtain rfl := dialWith_ok hDial
          exact ⟨tc, rfl, tlsConfig_follows hBoth hConfig⟩
        · refine .of_tls hTls fun conn hOk => ?_
          rw [luaConnect_bare hTls hSides hBoth, mapError_eq_ok] at hOk
          obtain hPlain | hRefused | hBoth' | ⟨hCa, hUsable⟩ | hDial := h
          · exact absurd hTls hPlain
          · exact absurd hSides hRefused
          · exact absurd hBoth' hBoth
          · obtain rfl := dialWith_ok hOk
            exact ⟨_, rfl, bareOptions_follows hCa hBoth, hUsable⟩
          · obtain ⟨err, hErr⟩ := Option.ne_none_iff_exists'.mp hDial
            rw [dialWith, hErr] at hOk
            cases hOk
      · exact .of_error fun conn => luaConnect_refused hSides
    · refine ⟨fun conn hOk => ?_, fun conn tc hOk hCreds => ?_, fun conn hTls' => absurd hTls' hTls⟩
      · exact ⟨fun _ => hTls, fun _ => luaConnect_plaintext hTls hOk⟩
      · rw [luaConnect_plaintext hTls hOk] at hCreds
        cases hCreds

end Connect

/-- A platform with one authority in the file `ca.crt` and no other files. -/
def caOnly : Crypto where
  Chain := Unit
  Key := Unit
  Cert := Unit
  Pool := Unit
  readFile path := if path = "ca.crt" then .ok "ca" else .error ("open " ++ path)
  parseChain _ := .error "tls: failed to find any PEM data in certificate input"
  parseKey _ := .error "tls: failed to find any PEM data in key input"
  pair _ _ := .ok ()
  appendCerts pem := if pem = "ca" then some () else none

def privateCa : ConnectOpt := ⟨some false, none, none, none, none, some "ca.crt"⟩

/-- A private CA alone is never read: the connection trusts the system's roots. -/
theorem lone_ca_ignored : ¬ Honoured (C := caOnly) (fun _ _ => none) "127.0.0.1:2379" privateCa := by
  intro h
  have hOk : luaConnect (C := caOnly) (fun _ _ => none) "127.0.0.1:2379" privateCa =
      .ok (bareOptions caOnly privateCa) := luaConnect_bare rfl rfl (by decide)
  obtain ⟨pool, -, hRoots⟩ := (h.tls _ _ hOk rfl).roots (by decide)
  cases hRoots

end GrpcClient.Conn
