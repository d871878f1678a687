import Turbine.Ktls.Stream
import Turbine.Lib.BigEndian

/-!
# Giving the keys to the kernel: `setup_inner`, and what `CompatibleCiphers` finds out

When a session has been read empty, `setup_inner` takes the secrets of both directions out of
rustls and gives them to the kernel with three calls of `setsockopt`: one that puts TLS on top
of the socket, and one for the keys of each direction.  Each of them may fail, and nothing is
taken back; `Installed` says how far it has come for each way in which it can end.

Whether the kernel takes the keys of a cipher can be found out before.  `CompatibleCiphers`
tries the six combinations of a version and a cipher on sockets of its own, with secrets that
are all zero, and remembers which of them went well.  It tries the keys for sending only.  So
what it remembers is exactly whether `setup_inner` will get past the keys for sending, and
`setup_inner` succeeds if the kernel also takes the keys for receiving
(`setupInner_eq_ok_iff_isCompatible`).

Of the kernel it is used that its answer depends on the version and on the cipher, and not on
the key itself, that the keys of a direction can be set once, and only after the call that
puts TLS on top.
-/

namespace Turbine
namespace Ffi

/-- `rustls::BulkAlgorithm`. -/
inductive BulkAlgorithm where
  | aes128Gcm
  | aes256Gcm
  | chacha20Poly1305
  deriving DecidableEq

/-- `rustls::SupportedCipherSuite`, with the algorithm of the suite. -/
inductive SupportedCipherSuite where
  | tls12 (bulk : BulkAlgorithm)
  | tls13 (bulk : BulkAlgorithm)
  deriving DecidableEq

namespace SupportedCipherSuite

/-- `suite.common.bulk`. -/
def bulk : SupportedCipherSuite → BulkAlgorithm
  | .tls12 bulk => bulk
  | .tls13 bulk => bulk

/-- `TLS_1_2_VERSION_NUMBER` or `TLS_1_3_VERSION_NUMBER`. -/
def version : SupportedCipherSuite → UInt16
  | .tls12 _ => 0x0303
  | .tls13 _ => 0x0304

end SupportedCipherSuite

/-- `rustls::ConnectionTrafficSecrets`; the type is open, and `other` is what `from_rustls`
does not know. -/
inductive ConnectionTrafficSecrets where
  | aes128Gcm (key : Vector UInt8 16) (salt : Vector UInt8 4) (iv : Vector UInt8 8)
  | aes256Gcm (key : Vector UInt8 32) (salt : Vector UInt8 4) (iv : Vector UInt8 8)
  | chacha20Poly1305 (key : Vector UInt8 32) (iv : Vector UInt8 12)
  | other

/-- The algorithm that the secrets are for. -/
def ConnectionTrafficSecrets.bulk? : ConnectionTrafficSecrets → Option BulkAlgorithm
  | .aes128Gcm .. => some .aes128Gcm
  | .aes256Gcm .. => some .aes256Gcm
  | .chacha20Poly1305 .. => some .chacha20Poly1305
  | .other => none

/-- `CryptoInfo`, as far as `from_rustls` builds it: what the kernel is given for one
direction. -/
inductive CryptoInfo where
  | aesGcm128 (version : UInt16) (iv : Vector UInt8 8) (key : Vector UInt8 16)
      (salt : Vector UInt8 4) (recSeq : List UInt8)
  | aesGcm256 (version : UInt16) (iv : Vector UInt8 8) (key : Vector UInt8 32)
      (salt : Vector UInt8 4) (recSeq : List UInt8)
  | chacha20Poly1305 (version : UInt16) (iv : Vector UInt8 12) (key : Vector UInt8 32)
      (recSeq : List UInt8)
  deriving DecidableEq

/-- `KtlsCompatibilityError`, as far as it is made. -/
inductive KtlsCompatibilityError where
  | unsupportedCipherSuite (suite : SupportedCipherSuite)
  deriving DecidableEq

/-- `ktls::Error`, as far as `setup_inner` makes it. -/
inductive SetupError where
  | ulpError (e : IoError)
  | ktlsCompatibility (e : KtlsCompatibilityError)
  | exportSecrets (e : String)
  | tlsCryptoInfoError (e : IoError)
  | noNegotiatedCipherSuite
  deriving DecidableEq

/-- `Direction`. -/
inductive Direction where
  | tx
  | rx
  deriving DecidableEq

namespace CryptoInfo

/-- `CryptoInfo::from_rustls`. -/
def fromRustls (cipherSuite : SupportedCipherSuite) (seq : ℕ) :
    ConnectionTrafficSecrets → Except KtlsCompatibilityError CryptoInfo
  | .aes128Gcm key salt iv =>
      .ok (.aesGcm128 cipherSuite.version iv key salt (BigEndian.bytes 8 seq))
  | .aes256Gcm key salt iv =>
      .ok (.aesGcm256 cipherSuite.version iv key salt (BigEndian.bytes 8 seq))
  | .chacha20Poly1305 key iv =>
      .ok (.chacha20Poly1305 cipherSuite.version iv key (BigEndian.bytes 8 seq))
  | .other => .error (.unsupportedCipherSuite cipherSuite)

def version : CryptoInfo → UInt16
  | .aesGcm128 version .. => version
  | .aesGcm256 version .. => version
  | .chacha20Poly1305 version .. => version

/-- `cipher_type`, as the algorithm it stands for. -/
def cipherType : CryptoInfo → BulkAlgorithm
  | .aesGcm128 .. => .aes128Gcm
  | .aesGcm256 .. => .aes256Gcm
  | .chacha20Poly1305 .. => .chacha20Poly1305

/-- The number of the next record. -/
def recSeq : CryptoInfo → List UInt8
  | .aesGcm128 _ _ _ _ recSeq => recSeq
  | .aesGcm256 _ _ _ _ recSeq => recSeq
  | .chacha20Poly1305 _ _ _ recSeq => recSeq

/-- The same keys, for the record with this number. -/
def withRecSeq (recSeq : List UInt8) : CryptoInfo → CryptoInfo
  | .aesGcm128 version iv key salt _ => .aesGcm128 version iv key salt recSeq
  | .aesGcm256 version iv key salt _ => .aesGcm256 version iv key salt recSeq
  | .chacha20Poly1305 version iv key _ => .chacha20Poly1305 version iv key recSeq

@[simp] theorem recSeq_withRecSeq (recSeq : List UInt8) (info : CryptoInfo) :
    (info.withRecSeq recSeq).recSeq = recSeq := by
  cases info <;> rfl

/-- What the kernel decides by, and the number that it starts with. -/
theorem exists_fromRustls {suite : SupportedCipherSuite} {secrets : ConnectionTrafficSecrets}
    (h : secrets.bulk? = some suite.bulk) (seq : ℕ) :
    ∃ info, fromRustls suite seq secrets = .ok info ∧ info.version = suite.version ∧
      info.cipherType = suite.bulk ∧ info.recSeq = BigEndian.bytes 8 seq := by
  cases secrets with
  | aes128Gcm key salt iv => exact ⟨_, rfl, rfl, Option.some.inj h, rfl⟩
  | aes256Gcm key salt iv => exact ⟨_, rfl, rfl, Option.some.inj h, rfl⟩
  | chacha20Poly1305 key iv => exact ⟨_, rfl, rfl, Option.some.inj h, rfl⟩
  | other => exact absurd h (by simp [ConnectionTrafficSecrets.bulk?])

theorem recSeq_of_fromRustls {suite : SupportedCipherSuite} {seq : ℕ}
    {secrets : ConnectionTrafficSecrets} {info : CryptoInfo}
    (h : fromRustls suite seq secrets = .ok info) : info.recSeq = BigEndian.bytes 8 seq := by
  cases secrets with
  | other => exact absurd h (by simp [fromRustls])
  | _ =>
    obtain rfl := Except.ok.inj h
    rfl

end CryptoInfo

/-! ## The kernel -/

/-- `EBUSY`. -/
def ebusy : ℕ := 16

/-- `EEXIST`. -/
def eexist : ℕ := 17

/-- `ENOPROTOOPT`. -/
def enoprotoopt : ℕ := 92

/-- What the kernel knows of TLS on a socket. -/
structure TlsSocket where
  ulp : Bool
  tx : Option CryptoInfo
  rx : Option CryptoInfo
  deriving DecidableEq

namespace TlsSocket

/-- A connection without TLS. -/
def fresh : TlsSocket := ⟨false, none, none⟩

def crypto (sock : TlsSocket) : Direction → Option CryptoInfo
  | .tx => sock.tx
  | .rx => sock.rx

def setCrypto (sock : TlsSocket) (info : CryptoInfo) : Direction → TlsSocket
  | .tx => { sock with tx := some info }
  | .rx => { sock with rx := some info }

end TlsSocket

/-- A kernel, by the errors it has for these calls. -/
structure TlsKernel where
  ulp : Option IoError
  crypto : Direction → UInt16 → BulkAlgorithm → Option IoError

/-- `rustls::Connection` after the handshake, as far as `setup_inner` looks at it; the secrets
are those for sending and those for receiving. -/
structure RustlsConnection where
  negotiatedCipherSuite : Option SupportedCipherSuite
  extractSecrets :
    Except String ((ℕ × ConnectionTrafficSecrets) × (ℕ × ConnectionTrafficSecrets))

namespace TlsKernel

variable (kernel : TlsKernel)

/-- `setup_ulp`. -/
def setupUlp (sock : TlsSocket) : Except IoError TlsSocket :=
  if sock.ulp then .error (some eexist)
  else
    match kernel.ulp with
    | some e => .error e
    | none => .ok { sock with ulp := true }

/-- `setup_tls_info`. -/
def setupTlsInfo (sock : TlsSocket) (dir : Direction) (info : CryptoInfo) :
    Except SetupError TlsSocket :=
  if !sock.ulp then .error (.tlsCryptoInfoError (some enoprotoopt))
  else if (sock.crypto dir).isSome then .error (.tlsCryptoInfoError (some ebusy))
  else
    match kernel.crypto dir info.version info.cipherType with
    | some e => .error (.tlsCryptoInfoError e)
    | none => .ok (sock.setCrypto info dir)

/-- `setup_inner`: the answer, and the socket as it is left. -/
def setupInner (sock : TlsSocket) (conn : RustlsConnection) : Except SetupError Unit × TlsSocket :=
  match conn.negotiatedCipherSuite with
  | none => (.error .noNegotiatedCipherSuite, sock)
  | some cipherSuite =>
    match conn.extractSecrets with
    | .error err => (.error (.exportSecrets err), sock)
    | .ok (tx, rx) =>
      match kernel.setupUlp sock with
      | .error e => (.error (.ulpError e), sock)
      | .ok sock =>
        match CryptoInfo.fromRustls cipherSuite tx.1 tx.2 with
        | .error e => (.error (.ktlsCompatibility e), sock)
        | .ok tx =>
          match kernel.setupTlsInfo sock .tx tx with
          | .error e => (.error e, sock)
          | .ok sock =>
            match CryptoInfo.fromRustls cipherSuite rx.1 rx.2 with
            | .error e => (.error (.ktlsCompatibility e), sock)
            | .ok rx =>
              match kernel.setupTlsInfo sock .rx rx with
              | .error e => (.error e, sock)
              | .ok sock => (.ok (), sock)

variable {kernel}

theorem setupUlp_eq_ok {sock sock' : TlsSocket} (h : kernel.setupUlp sock = .ok sock') :
    sock' = { sock with ulp := true } := by
  unfold setupUlp at h
  split at h
  · exact absurd h (by simp)
  · split at h
    · exact absurd h (by simp)
    · exact (Except.ok.inj h).symm

theorem setupTlsInfo_eq_ok {sock sock' : TlsSocket} {dir : Direction} {info : CryptoInfo}
    (h : kernel.setupTlsInfo sock dir info = .ok sock') : sock' = sock.setCrypto info dir := by
  unfold setupTlsInfo at h
  split at h
  · exact absurd h (by simp)
  · split at h
    · exact absurd h (by simp)
    · split at h
      · exact absurd h (by simp)
      · exact (Except.ok.inj h).symm

/-- What the socket has after a success, whatever it had before. -/
theorem setupInner_eq_ok {sock sock' : TlsSocket} {conn : RustlsConnection}
    (h : kernel.setupInner sock conn = (.ok (), sock')) :
    ∃ suite tx rx txInfo rxInfo, conn.negotiatedCipherSuite = some suite ∧
      conn.extractSecrets = .ok (tx, rx) ∧ CryptoInfo.fromRustls suite tx.1 tx.2 = .ok txInfo ∧
      CryptoInfo.fromRustls suite rx.1 rx.2 = .ok rxInfo ∧
      sock' = ⟨true, some txInfo, some rxInfo⟩ := by
  unfold setupInner at h
  split at h
  · exact absurd h (by simp)
  rename_i suite hsuite
  split at h
  · exact absurd h (by simp)
  rename_i tx rx hsecrets
  split at h
  · exact absurd h (by simp)
  rename_i sock₁ hulp
  split at h
  · exact absurd h (by simp)
  rename_i txInfo htx
  split at h
  · exact absurd h (by simp)
  rename_i sock₂ htxSet
  split at h
  · exact absurd h (by simp)
  rename_i rxInfo hrx
  split at h
  · exact absurd h (by simp)
  rename_i sock₃ hrxSet
  obtain ⟨-, rfl⟩ := Prod.mk.inj h
  obtain rfl := setupUlp_eq_ok hulp
  obtain rfl := setupTlsInfo_eq_ok htxSet
  obtain rfl := setupTlsInfo_eq_ok hrxSet
  exact ⟨suite, tx, rx, txInfo, rxInfo, hsuite, hsecrets, htx, hrx, rfl⟩

variable (kernel)

/-- What `setup_inner` does with secrets for the negotiated suite, call by call. -/
theorem setupInner_fresh {conn : RustlsConnection} {suite : SupportedCipherSuite}
    {tx rx : ℕ × ConnectionTrafficSecrets} (hsuite : conn.negotiatedCipherSuite = some suite)
    (hsecrets : conn.extractSecrets = .ok (tx, rx)) (htx : tx.2.bulk? = some suite.bulk)
    (hrx : rx.2.bulk? = some suite.bulk) :
    ∃ txInfo rxInfo, CryptoInfo.fromRustls suite tx.1 tx.2 = .ok txInfo ∧
      CryptoInfo.fromRustls suite rx.1 rx.2 = .ok rxInfo ∧
      kernel.setupInner .fresh conn =
        match kernel.ulp with
        | some e => (.error (.ulpError e), .fresh)
        | none =>
          match kernel.crypto .tx suite.version suite.bulk with
          | some e => (.error (.tlsCryptoInfoError e), ⟨true, none, none⟩)
          | none =>
            match kernel.crypto .rx suite.version suite.bulk with
            | some e => (.error (.tlsCryptoInfoError e), ⟨true, some txInfo, none⟩)
            | none => (.ok (), ⟨true, some txInfo, some rxInfo⟩) := by
  obtain ⟨txInfo, htxInfo, htxVersion, htxCipher, -⟩ := CryptoInfo.exists_fromRustls htx tx.1
  obtain ⟨rxInfo, hrxInfo, hrxVersion, hrxCipher, -⟩ := CryptoInfo.exists_fromRustls hrx rx.1
  refine ⟨txInfo, rxInfo, htxInfo, hrxInfo, ?_⟩
  rw [setupInner, hsuite]
  simp only [hsecrets, setupUlp, TlsSocket.fresh]
  cases kernel.ulp with
  | some e => rfl
  | none =>
    simp only [htxInfo, setupTlsInfo, htxVersion, htxCipher, TlsSocket.crypto]
    cases kernel.crypto .tx suite.version suite.bulk with
    | some e => rfl
    | none =>
      simp only [hrxInfo, hrxVersion, hrxCipher, TlsSocket.setCrypto]
      cases kernel.crypto .rx suite.version suite.bulk <;> rfl

end TlsKernel

/-! ## Trying the ciphers -/

structure CompatibleCiphersForVersion where
  aesGcm128 : Bool := false
  aesGcm256 : Bool := false
  chacha20Poly1305 : Bool := false
  deriving DecidableEq

structure CompatibleCiphers where
  tls12 : CompatibleCiphersForVersion := {}
  tls13 : CompatibleCiphersForVersion := {}
  deriving DecidableEq

/-- `zero_secrets`. -/
def zeroSecrets : BulkAlgorithm → ConnectionTrafficSecrets
  | .aes128Gcm => .aes128Gcm (.replicate 16 0) (.replicate 4 0) (.replicate 8 0)
  | .aes256Gcm => .aes256Gcm (.replicate 32 0) (.replicate 4 0) (.replicate 8 0)
  | .chacha20Poly1305 => .chacha20Poly1305 (.replicate 32 0) (.replicate 12 0)

/-- `sample_cipher_setup`; `none` is a panic of its `unwrap`. -/
def sampleCipherSetup (kernel : TlsKernel) (sock : TlsSocket)
    (cipherSuite : SupportedCipherSuite) : Option (Except SetupError TlsSocket) :=
  match CryptoInfo.fromRustls cipherSuite 0 (zeroSecrets cipherSuite.bulk) with
  | .error _ => none
  | .ok info =>
      match kernel.setupUlp sock with
      | .error e => some (.error (.ulpError e))
      | .ok sock => some (kernel.setupTlsInfo sock .tx info)

namespace CompatibleCiphers

/-- `CIPHERS_COUNT`. -/
def ciphersCount : ℕ := 6

/-- The array of `test_ciphers`: the suites, and the fields to be set. -/
def ciphers : List (SupportedCipherSuite × (CompatibleCiphers → Bool → CompatibleCiphers)) :=
  [(.tls13 .aes128Gcm, fun c ok => { c with tls13 := { c.tls13 with aesGcm128 := ok } }),
    (.tls13 .aes256Gcm, fun c ok => { c with tls13 := { c.tls13 with aesGcm256 := ok } }),
    (.tls13 .chacha20Poly1305,
      fun c ok => { c with tls13 := { c.tls13 with chacha20Poly1305 := ok } }),
    (.tls12 .aes128Gcm, fun c ok => { c with tls12 := { c.tls12 with aesGcm128 := ok } }),
    (.tls12 .aes256Gcm, fun c ok => { c with tls12 := { c.tls12 with aesGcm256 := ok } }),
    (.tls12 .chacha20Poly1305,
      fun c ok => { c with tls12 := { c.tls12 with chacha20Poly1305 := ok } })]

/-- The closure of `test_ciphers`. -/
def testCipher (kernel : TlsKernel) (c : CompatibleCiphers)
    (x : (SupportedCipherSuite × (CompatibleCiphers → Bool → CompatibleCiphers)) × TlsSocket) :
    Option CompatibleCiphers := do
  let answer ← sampleCipherSetup kernel x.2 x.1.1
  return x.1.2 c answer.isOk

/-- `test_ciphers`. -/
def testCiphers (kernel : TlsKernel) (c : CompatibleCiphers) (socks : List TlsSocket) :
    Option CompatibleCiphers :=
  (ciphers.zip socks).foldlM (testCipher kernel) c

/-- `CompatibleCiphers::new`, when a listener and six connections to it were made or an error
occurred; `none` is a panic. -/
def new (kernel : TlsKernel) (failed : Option IoError) :
    Option (Except IoError CompatibleCiphers) :=
  match failed with
  | some e => some (.error e)
  | none => (testCiphers kernel {} (List.replicate ciphersCount .fresh)).map .ok

/-- `is_compatible`. -/
def isCompatible (c : CompatibleCiphers) (suite : SupportedCipherSuite) : Bool :=
  let fields := match suite with
    | .tls12 _ => c.tls12
    | .tls13 _ => c.tls13
  match suite.bulk with
  | .aes128Gcm => fields.aesGcm128
  | .aes256Gcm => fields.aesGcm256
  | .chacha20Poly1305 => fields.chacha20Poly1305

end CompatibleCiphers

namespace TlsKernel

/-- The kernel puts TLS on top of sockets and takes the keys of this suite for sending. -/
def takesTx (kernel : TlsKernel) (suite : SupportedCipherSuite) : Bool :=
  kernel.ulp.isNone && (kernel.crypto .tx suite.version suite.bulk).isNone

end TlsKernel

/-- One trial. -/
theorem sampleCipherSetup_fresh (kernel : TlsKernel) (suite : SupportedCipherSuite) :
    ∃ answer, sampleCipherSetup kernel .fresh suite = some answer ∧
      answer.isOk = kernel.takesTx suite := by
  have hkind : (zeroSecrets suite.bulk).bulk? = some suite.bulk := by
    cases suite.bulk <;> rfl
  obtain ⟨info, hinfo, hversion, hcipher, -⟩ := CryptoInfo.exists_fromRustls hkind 0
  rw [sampleCipherSetup, hinfo, TlsKernel.takesTx]
  simp only [TlsKernel.setupUlp, TlsSocket.fresh]
  cases kernel.ulp with
  | some e => exact ⟨_, rfl, rfl⟩
  | none =>
    refine ⟨_, rfl, ?_⟩
    simp only [TlsKernel.setupTlsInfo, TlsSocket.crypto, hversion, hcipher]
    cases kernel.crypto .tx suite.version suite.bulk <;> rfl

namespace CompatibleCiphers

/-- What the six trials leave in the six fields. -/
def tried (kernel : TlsKernel) : CompatibleCiphers where
  tls12 := ⟨kernel.takesTx (.tls12 .aes128Gcm), kernel.takesTx (.tls12 .aes256Gcm),
    kernel.takesTx (.tls12 .chacha20Poly1305)⟩
  tls13 := ⟨kernel.takesTx (.tls13 .aes128Gcm), kernel.takesTx (.tls13 .aes256Gcm),
    kernel.takesTx (.tls13 .chacha20Poly1305)⟩

theorem foldlM_testCipher (kernel : TlsKernel) (c : CompatibleCiphers)
    (cs : List (SupportedCipherSuite × (CompatibleCiphers → Bool → CompatibleCiphers))) :
    (cs.zip (List.replicate cs.length .fresh)).foldlM (testCipher kernel) c =
      some (cs.foldl (fun c x => x.2 c (kernel.takesTx x.1)) c) := by
  induction cs generalizing c with
  | nil => rfl
  | cons x cs ih =>
    obtain ⟨answer, hsample, hok⟩ := sampleCipherSetup_fresh kernel x.1
    have htest : testCipher kernel c (x, .fresh) = some (x.2 c (kernel.takesTx x.1)) := by
      rw [testCipher, hsample, ← hok]
      rfl
    rw [List.length_cons, List.replicate_succ, List.zip_cons_cons, List.foldlM_cons, htest]
    exact ih _

theorem new_eq (kernel : TlsKernel) : new kernel none = some (.ok (tried kernel)) := by
  have hciphers : testCiphers kernel {} (List.replicate ciphersCount .fresh) =
      some (tried kernel) := foldlM_testCipher kernel {} ciphers
  rw [new, hciphers]
  rfl

/-- Each field is about its own suite. -/
theorem isCompatible_tried (kernel : TlsKernel) (suite : SupportedCipherSuite) :
    (tried kernel).isCompatible suite = kernel.takesTx suite := by
  cases suite with
  | tls12 bulk => cases bulk <;> rfl
  | tls13 bulk => cases bulk <;> rfl

/-- **What `is_compatible` tells.**  For every kernel, `CompatibleCiphers::new` makes its six
trials without a panic, and then for every suite and all secrets for it: `is_compatible` is
true exactly if `setup_inner` gets the keys for sending into the kernel, and `setup_inner`
succeeds exactly if the kernel then takes those for receiving, which have not been tried. -/
theorem setupInner_eq_ok_iff_isCompatible (kernel : TlsKernel) (suite : SupportedCipherSuite)
    (conn : RustlsConnection) (tx rx : ℕ × ConnectionTrafficSecrets)
    (hsuite : conn.negotiatedCipherSuite = some suite)
    (hsecrets : conn.extractSecrets = .ok (tx, rx)) (htx : tx.2.bulk? = some suite.bulk)
    (hrx : rx.2.bulk? = some suite.bulk) :
    ∃ c, new kernel none = some (.ok c) ∧
      (c.isCompatible suite = true ↔ (kernel.setupInner .fresh conn).2.tx.isSome = true) ∧
      ((kernel.setupInner .fresh conn).1 = .ok () ↔
        c.isCompatible suite = true ∧ kernel.crypto .rx suite.version suite.bulk = none) := by
  refine ⟨_, new_eq kernel, ?_⟩
  obtain ⟨txInfo, rxInfo, -, -, hinner⟩ :=
    TlsKernel.setupInner_fresh kernel hsuite hsecrets htx hrx
  rw [isCompatible_tried, hinner, TlsKernel.takesTx]
  cases kernel.ulp with
  | some e => simp [TlsSocket.fresh]
  | none =>
    cases kernel.crypto .tx suite.version suite.bulk with
    | some e => simp
    | none => cases kernel.crypto .rx suite.version suite.bulk <;> simp

/-- A kernel that has AES-GCM for both versions, and receives with TLS 1.2 only. -/
def halfKernel : TlsKernel where
  ulp := none
  crypto dir version cipher :=
    if cipher = .chacha20Poly1305 then some (some 2)
    else if dir = .rx ∧ version = 0x0304 then some (some 22)
    else none

/-- A session of TLS 1.3 that has sent and received so many records. -/
def aesSession (tx rx : ℕ) : RustlsConnection where
  negotiatedCipherSuite := some (.tls13 .aes128Gcm)
  extractSecrets := .ok ((tx, zeroSecrets .aes128Gcm), (rx, zeroSecrets .aes128Gcm))

/-- With TLS 1.3 the trial went well, and the keys for receiving are refused. -/
theorem setupInner_eq_ok_iff_isCompatible_halfKernel :
    ∃ c, new halfKernel none = some (.ok c) ∧ c.isCompatible (.tls13 .aes128Gcm) = true ∧
      ∀ tx rx, (halfKernel.setupInner .fresh (aesSession tx rx)).1 ≠ .ok () := by
  have hcompatible : (tried halfKernel).isCompatible (.tls13 .aes128Gcm) = true := by decide
  refine ⟨_, new_eq halfKernel, hcompatible, fun tx rx hok => ?_⟩
  obtain ⟨c, -, -, hiff⟩ := setupInner_eq_ok_iff_isCompatible halfKernel (.tls13 .aes128Gcm)
    (aesSession tx rx) (tx, zeroSecrets .aes128Gcm) (rx, zeroSecrets .aes128Gcm) rfl rfl rfl rfl
  exact absurd (hiff.mp hok).2 (by decide)

end CompatibleCiphers

end Ffi
end Turbine
