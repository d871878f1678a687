import Turbine.Config.Parse
import Turbine.Lib.Records

/-!
# Reading a ClientHello: what is used of rustls

`extract_tls_info` gives what it has peeked to a rustls deframer, takes one message out of it
and looks for a ClientHello in the message.  The three calls it makes are the fields of
`Rustls`, and the results about it hold for any three functions that do the right thing on the
record that a client sends.

`Rustls.plain` is one such choice: rustls 0.21, on records that are not encrypted.  A record is
taken out once all of it is there, as its header says; the payloads of handshake records are
joined until they hold a whole handshake message, as the header of the message says; and the
body of a ClientHello is taken apart into the vectors that it consists of, down to the names in
its `server_name` extension and the protocols in its `application_layer_protocol_negotiation`
extension.  The other extensions are not looked into.
-/

namespace Turbine

/-- `HandshakePayload`; the argument of `other` is its `Debug` text. -/
inductive HandshakePayload (σ : Type) where
  | clientHello (sni : Option σ) (alpn : Option (List (List UInt8)))
  | other (debug : String)
  deriving DecidableEq

/-- `MessagePayload`. -/
inductive MessagePayload (σ : Type) where
  | handshake (payload : HandshakePayload σ)
  | other (debug : String)
  deriving DecidableEq

/-- What is used of rustls: `μ` are its plain messages, `σ` its lists of server names. -/
structure Rustls (μ σ : Type) where
  /-- How much `MessageDeframer::read` offers to one `read` call. -/
  readSize : ℕ
  /-- `MessageDeframer::pop`, on the bytes read so far. -/
  pop : List UInt8 → Except Error (Option μ)
  /-- `Message::try_from`. -/
  tryFrom : μ → Except Error (MessagePayload σ)
  /-- `get_single_hostname`. -/
  getSingleHostname : σ → Option String

namespace ClientHello

/-- `InvalidMessage`, as an error of rustls shows it. -/
def corrupt (what : String) : Error := ["received corrupt message of type " ++ what]

def u16 (hi lo : UInt8) : ℕ := hi.toNat * 256 + lo.toNat

/-! ## Vectors -/

/-- The first `n` bytes, and those behind them. -/
def split (n : ℕ) (bs : List UInt8) : Option (List UInt8 × List UInt8) :=
  if bs.length < n then none else some (bs.take n, bs.drop n)

/-- A vector with its length in one byte, and what is behind it. -/
def vec8 : List UInt8 → Option (List UInt8 × List UInt8)
  | n :: bs => split n.toNat bs
  | [] => none

/-- A vector with its length in two bytes. -/
def vec16 : List UInt8 → Option (List UInt8 × List UInt8)
  | hi :: lo :: bs => split (u16 hi lo) bs
  | _ => none

/-- Items up to the end of the bytes; each takes one byte at least. -/
def many {β : Type} (item : List UInt8 → Option (β × List UInt8)) :
    ℕ → List UInt8 → Option (List β)
  | _, [] => some []
  | 0, _ => none
  | fuel + 1, bs => do
      let (b, rest) ← item bs
      let more ← many item fuel rest
      return b :: more

/-- A vector of items that is all there is. -/
def listOf {β : Type} (item : List UInt8 → Option (β × List UInt8)) (data : List UInt8) :
    Option (List β) := do
  let (items, rest) ← vec16 data
  guard (rest = [])
  many item items.length items

/-! ## The ClientHello -/

/-- An extension: its type and its data. -/
def extension : List UInt8 → Option ((ℕ × List UInt8) × List UInt8)
  | hi :: lo :: bs => (vec16 bs).map fun (data, rest) => ((u16 hi lo, data), rest)
  | _ => none

/-- A `ServerName`: a host name, or `none` for a name of another type, which goes on to the
end. -/
def serverName : List UInt8 → Option (Option String × List UInt8)
  | 0 :: bs => (vec16 bs).map fun (name, rest) =>
      (some (String.ofList (name.map fun b => Char.ofNat b.toNat)), rest)
  | _ :: _ => some (none, [])
  | [] => none

/-- `ClientHelloPayload::read`, on the body of the message: the server names and the protocol
list. -/
def body (bs : List UInt8) :
    Option (Option (List (Option String)) × Option (List (List UInt8))) := do
  -- `client_version` and `random`
  let (_, bs) ← split 34 bs
  let (sessionId, bs) ← vec8 bs
  guard (sessionId.length ≤ 32)
  let (_cipherSuites, bs) ← vec16 bs
  let (_compressionMethods, bs) ← vec8 bs
  let extensions ← listOf extension bs
  guard (extensions ≠ [])
  let sni ← (extensions.lookup 0).mapM (listOf serverName)
  let alpn ← (extensions.lookup 16).mapM (listOf vec8)
  return (sni, alpn)

/-! ## The deframer -/

/-- `PlainMessage`. -/
structure PlainMessage where
  typ : UInt8
  payload : List UInt8
  deriving DecidableEq

/-- The versions outside of `0x03XX` that `ProtocolVersion` has a name for. -/
def namedVersions : List ℕ := [0x0200, 0xfeff, 0xfefd, 0xfefc]

/-- `OpaqueMessage::read`: the record at the front of the bytes, and what is behind it; `none`
if it is not all there. -/
def readRecord : List UInt8 → Except Error (Option (PlainMessage × List UInt8))
  | [] => .ok none
  | typ :: bs =>
      if typ < 20 ∨ 24 < typ then .error (corrupt "InvalidContentType")
      else match bs with
        | major :: minor :: bs =>
            if major ≠ 3 ∧ u16 major minor ∉ namedVersions then
              .error (corrupt "UnknownProtocolVersion")
            else match bs with
              | hi :: lo :: rest =>
                  if typ ≠ 23 ∧ u16 hi lo = 0 then .error (corrupt "InvalidEmptyPayload")
                  else if 16384 + 2048 ≤ u16 hi lo then .error (corrupt "MessageTooLarge")
                  else .ok ((split (u16 hi lo) rest).map fun (payload, rest) =>
                    (⟨typ, payload⟩, rest))
              | _ => .ok none
        | _ => .ok none

/-- `payload_size`: how long a handshake message is with its header, once the header is
there. -/
def payloadSize : List UInt8 → Except Error (Option ℕ)
  | _ :: a :: b :: c :: _ =>
      if 0xffff < a.toNat * 65536 + u16 b c then .error (corrupt "HandshakePayloadTooLarge")
      else .ok (some (4 + (a.toNat * 65536 + u16 b c)))
  | _ => .ok none

/-- `MessageDeframer::pop`, with what has been joined of a handshake message so far. -/
def pop : ℕ → Option (List UInt8) → List UInt8 → Except Error (Option PlainMessage)
  | 0, _, _ => .ok none
  | fuel + 1, joining, bs => do
      match ← readRecord bs with
      | none => return none
      | some (m, rest) =>
          if m.typ = 22 then
            let joined := joining.getD [] ++ m.payload
            match ← payloadSize joined with
            | some len =>
                if len ≤ joined.length then return some ⟨22, joined.take len⟩
                else if rest = [] then return none else pop fuel (some joined) rest
            | none => if rest = [] then return none else pop fuel (some joined) rest
          else if joining.isSome then
            throw ["peer misbehaved: MessageInterleavedWithHandshakeMessage"]
          else return some m

/-- `Message::try_from`; the type stands for the `Debug` text of what is not a ClientHello. -/
def message (m : PlainMessage) : Except Error (MessagePayload (List (Option String))) :=
  if m.typ = 22 then
    match m.payload with
    | typ :: a :: b :: c :: bs =>
        if bs.length ≠ a.toNat * 65536 + u16 b c then .error (corrupt "MissingData")
        else if typ = 1 then
          match body bs with
          | some (sni, alpn) => .ok (.handshake (.clientHello sni alpn))
          | none => .error (corrupt "MissingData")
        else .ok (.handshake (.other (toString typ)))
    | _ => .error (corrupt "MissingData")
  else .ok (.other (toString m.typ))

/-! ## A record that is all there, and one that is not -/

variable {μ : Type} {r : Record μ}

theorem split_append (bs rest : List UInt8) : split bs.length (bs ++ rest) = some (bs, rest) := by
  rw [split, if_neg (by simp), List.take_left, List.drop_left]

/-- A plain handshake record. -/
structure IsHandshake (r : Record μ) : Prop where
  typ : r.typ = 22
  major : r.major = 3
  nonempty : r.payload ≠ []
  small : r.payload.length < 16384 + 2048

theorem IsHandshake.encode_eq (h : IsHandshake r) :
    Records.encode r = 22 :: 3 :: r.minor :: UInt8.ofNat (r.payload.length / 256) ::
      UInt8.ofNat (r.payload.length % 256) :: r.payload := by
  rw [Records.encode, Records.header, h.typ, h.major]
  rfl

/-- Behind the five bytes of its header, a record is taken out once its payload is there. -/
theorem IsHandshake.readRecord_eq (h : IsHandshake r) (bs : List UInt8) :
    readRecord (22 :: 3 :: r.minor :: UInt8.ofNat (r.payload.length / 256) ::
      UInt8.ofNat (r.payload.length % 256) :: bs) =
      .ok ((split r.payload.length bs).map fun (payload, rest) => (⟨22, payload⟩, rest)) := by
  have hlen : u16 (UInt8.ofNat (r.payload.length / 256)) (UInt8.ofNat (r.payload.length % 256)) =
      r.payload.length := Records.lengthOf_header r
  have hpos : r.payload.length ≠ 0 := fun hzero => h.nonempty (List.length_eq_zero_iff.mp hzero)
  have hsmall := h.small
  rw [readRecord, if_neg (by decide)]
  simp only [hlen]
  rw [if_neg (by simp), if_neg (fun hbad => hpos hbad.2), if_neg (by omega)]

theorem IsHandshake.readRecord_encode (h : IsHandshake r) :
    readRecord (Records.encode r) = .ok (some (⟨22, r.payload⟩, [])) := by
  have hsplit := split_append r.payload []
  rw [List.append_nil] at hsplit
  rw [h.encode_eq, h.readRecord_eq, hsplit]
  rfl

theorem IsHandshake.readRecord_take (h : IsHandshake r) {n : ℕ}
    (hn : n < (Records.encode r).length) : readRecord ((Records.encode r).take n) = .ok none := by
  rw [h.encode_eq] at hn ⊢
  match n with
  | 0 | 1 | 2 | 3 | 4 => rfl
  | n + 5 =>
    simp only [List.length_cons] at hn
    have hshort : (r.payload.take n).length < r.payload.length := by
      rw [List.length_take]
      omega
    rw [List.take_succ_cons, List.take_succ_cons, List.take_succ_cons, List.take_succ_cons,
      List.take_succ_cons, h.readRecord_eq, split, if_pos hshort]
    rfl

/-- Nothing is popped off less than a record. -/
theorem IsHandshake.pop_of_prefix (h : IsHandshake r) {P : List UInt8}
    (hP : P <+: Records.encode r) (hne : P ≠ Records.encode r) (fuel : ℕ) :
    pop fuel none P = .ok none := by
  have hlt : P.length < (Records.encode r).length := by
    refine Nat.lt_of_le_of_ne hP.length_le fun heq => hne (hP.eq_of_length heq)
  cases fuel with
  | zero => rfl
  | succ fuel =>
    have hread := h.readRecord_take hlt
    rw [← List.prefix_iff_eq_take.mp hP] at hread
    simp only [pop, hread, bind, Except.bind]
    rfl

/-- A record with a whole handshake message in it gives the message. -/
theorem IsHandshake.pop_encode (h : IsHandshake r)
    (hsize : payloadSize r.payload = .ok (some r.payload.length)) (fuel : ℕ) :
    pop (fuel + 1) none (Records.encode r) = .ok (some ⟨22, r.payload⟩) := by
  simp only [pop, h.readRecord_encode, bind, Except.bind, Option.getD_none, List.nil_append, hsize,
    Nat.le_refl, if_true, List.take_length]
  rfl

end ClientHello

/-- rustls 0.21, on records that are not encrypted. -/
def Rustls.plain : Rustls ClientHello.PlainMessage (List (Option String)) where
  readSize := 4096
  pop bytes := ClientHello.pop bytes.length none bytes
  tryFrom := ClientHello.message
  getSingleHostname names := names.findSome? id

end Turbine
