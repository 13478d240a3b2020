import DxFeed.AddressParser
import DxFeed.Base64
import DxFeed.PropertyMap.Operations
import DxFeed.ServerMessageProcessor.RecordTables

/-!
# Connecting to an address

The addresses of a connection are resolved and shuffled, and tried from the current one on.  What
the sockets and the name server answer is an argument; allocations succeed, and no address is the
name of a local file.

* `ExtAddress`, `NetworkContext`: an address with its resolved endpoints, and the connection;
* `resolveAddress`: the resolution;
* `connectToResolvedAddresses`: the attempts of a call, each with the protocol properties that it
  was made with;
-/

namespace DxFeed.Network

open AddressParser Properties ServerMessageProcessor

variable {E : Type}

/-! ### Contexts -/

/-- `dx_ext_address_t` without the buffers of the key stores; `E` is `struct addrinfo`. -/
structure ExtAddress (E : Type) extends Address where
  elements : List E
  curInfoIndex : ℕ
  isConnectionFailed : Bool

/-- `dx_address_resolution_context_t` without what is freed later; a null pointer is `[]`. -/
structure AddressResolutionContext (E : Type) where
  elements : List (ExtAddress E)
  curAddrIndex : ℕ

/-- `dxf_connection_status_t`. -/
inductive ConnectionStatus
  | notConnected
  | connected
  | loginRequired
  | authorized
  deriving DecidableEq, Repr

/-- The fields of `dx_network_connection_context_t` that a connection is made with.  The maps of
properties are given by what they hold; `propBackup` is `none` without `PROPERTIES_BACKUP_FLAG`, and
`socket` says if `SOCKET_FIELD_FLAG` is set. -/
structure NetworkContext (E : Type) where
  addrContext : AddressResolutionContext E
  properties : Content
  propBackup : Option Content
  socket : Bool
  status : ConnectionStatus

/-- `dx_get_current_address`. -/
def NetworkContext.currentAddress (context : NetworkContext E) : Option (ExtAddress E) :=
  context.addrContext.elements[context.addrContext.curAddrIndex]?

/-- The current address is replaced. -/
def NetworkContext.setCurrent (context : NetworkContext E) (address : ExtAddress E) :
    NetworkContext E :=
  { context with addrContext := { context.addrContext with
      elements := context.addrContext.elements.set context.addrContext.curAddrIndex address } }

/-- `++ctx->cur_addr_index`. -/
def NetworkContext.nextAddress (context : NetworkContext E) : NetworkContext E :=
  { context with addrContext := { context.addrContext with
      curAddrIndex := context.addrContext.curAddrIndex + 1 } }

/-! ### Resolving -/

/-- `TRUST_STORE_DEFAULT_NAME`. -/
def trustStoreDefaultName : List UInt8 := "ca_cert.pem".toList.map Char.toUInt8

/-- `dx_create_ext_address`. -/
def createExtAddress (source : Address) : ExtAddress E where
  toAddress :=
    if source.tls.enabled = true ∧ source.tls.trustStore = none then
      { source with tls := { source.tls with trustStore := some trustStoreDefaultName } }
    else source
  elements := []
  curInfoIndex := 0
  isConnectionFailed := false

/-- `DX_SWAP` of two elements. -/
def swap {α : Type} (xs : List α) (i j : ℕ) : List α :=
  match xs[i]?, xs[j]? with
  | some x, some y => (xs.set i y).set j x
  | _, _ => xs

/-- `DX_ARRAY_SHUFFLE` from the index on; `draw` stands for `dx_random_size`. -/
def shuffleLoop {α : Type} (draw : ℕ → ℕ) : ℕ → List α → List α
  | 0, xs => xs
  | idx + 1, xs => shuffleLoop draw idx (swap xs (idx + 1) (draw (idx + 1)))

/-- `dx_shuffle_addrs`. -/
def shuffleAddrs (draw : ℕ → ℕ) (elements : List (ExtAddress E)) : List (ExtAddress E) :=
  shuffleLoop draw (elements.length - 1) elements

/-- `dx_clear_addr_context_data`. -/
def clearAddrContextData (context : AddressResolutionContext E) : AddressResolutionContext E :=
  match context.elements with
  | [] => context
  | _ => ⟨[], 0⟩

/-- What the outside world answers to a resolution: the addresses of the collection, the endpoints
of each of them, and the random numbers. -/
structure Resolution (E : Type) where
  addresses : Except Failure (List Address)
  getaddrinfo : ℕ → Option (List E)
  draw : ℕ → ℕ

/-- The loop of `dx_resolve_address`, from an index on. -/
def Resolution.resolved (answer : Resolution E) : ℕ → List Address → List (ExtAddress E)
  | _, [] => []
  | i, source :: sources =>
      { (createExtAddress source : ExtAddress E) with elements := (answer.getaddrinfo i).getD [] } ::
        answer.resolved (i + 1) sources

/-- `dx_resolve_address`. -/
def resolveAddress (answer : Resolution E) (context : NetworkContext E) :
    NetworkContext E × Bool :=
  match answer.addresses with
  | .error _ => (context, false)
  | .ok [] => (context, false)
  | .ok addresses =>
      let news := answer.resolved 0 addresses
      let elements := context.addrContext.elements ++ news
      let resolvedCount : ℕ := (news.map fun a => a.elements.length).sum
      if resolvedCount = 0 then
        ({ context with addrContext := { context.addrContext with elements := elements } }, false)
      else
        ({ context with addrContext := { context.addrContext with
            elements := shuffleAddrs answer.draw elements } }, true)

/-! ### Credentials -/

/-- `DX_PROPERTY_AUTH`. -/
def propertyAuth : WString := wideString "authorization"

/-- `DX_AUTH_BASIC_KEY`. -/
def authBasicKey : List UInt8 := "Basic".toList.map Char.toUInt8

/-- `sprintf` of a text: its length, or a negative number if this is no `int`. -/
def sprintf (text : List UInt8) : ℤ := if text.length < 2 ^ 31 then text.length else -1

/-- `dx_protocol_get_basic_auth_data`. -/
def getBasicAuthData (user password : List UInt8) : Option (List UInt8) :=
  let credentials := user ++ chars [':'] ++ password
  if sprintf credentials ≤ 0 then none
  else Base64.dxBase64Encode credentials (Base64.dxBase64Length credentials.length)

/-- `dx_protocol_configure_custom_auth` on the properties. -/
def configureCustomAuth (authscheme authdata : List UInt8) (properties : Content) : Content :=
  let widen := List.map fun c : UInt8 => c.toUInt16
  setContent properties (some propertyAuth)
    (some (widen authscheme ++ wideString " " ++ widen authdata))

/-- `dx_protocol_configure_basic_auth` on the properties; `none` is `false`. -/
def configureBasicAuth (user password : List UInt8) (properties : Content) : Option Content :=
  (getBasicAuthData user password).map fun data => configureCustomAuth authBasicKey data properties

/-- The credentials of an address, for properties that have none. -/
def addCredentials (address : Address) (properties : Content) : Option Content :=
  match address.username, address.password, properties propertyAuth with
  | some username, some password, none => configureBasicAuth username password properties
  | _, _, _ => some properties

/-- The properties in front of an attempt: the first one makes the backup, and the others restore
it. -/
def backUpProperties (context : NetworkContext E) : NetworkContext E :=
  match context.propBackup with
  | none => { context with propBackup := some context.properties }
  | some backup => { context with properties := backup }

/-! ### Connecting -/

/-- A call of `dx_connect` or `tls_connect`. -/
structure Attempt (E : Type) where
  addrIndex : ℕ
  infoIndex : ℕ
  address : Address
  properties : Content
  accepted : Bool

/-- The loop of `dx_connect_via_socket`: the indexes of the endpoints that were tried with their
answers, and the last index. -/
def socketLoop (answers : ℕ → Bool) : List E → ℕ → List (ℕ × Bool) × ℕ
  | [], j => ([], j)
  | _ :: infos, j =>
      if answers j then ([(j, true)], j)
      else
        let r := socketLoop answers infos (j + 1)
        ((j, false) :: r.1, r.2)

/-- `dx_connect_via_socket`. -/
def connectViaSocket (answers : ℕ → Bool) (address : ExtAddress E) :
    List (ℕ × Bool) × ExtAddress E :=
  let r := socketLoop answers (address.elements.drop address.curInfoIndex) address.curInfoIndex
  (r.1, { address with curInfoIndex := r.2 })

/-- `dx_connect_via_tls`: one attempt, which does not use the endpoints. -/
def connectViaTls (answers : ℕ → Bool) (address : ExtAddress E) :
    List (ℕ × Bool) × ExtAddress E :=
  ([(0, answers 0)], address)

/-- The attempts for the current address. -/
def connectViaAddress (answers : ℕ → Bool) (address : ExtAddress E) :
    List (ℕ × Bool) × ExtAddress E :=
  if address.tls.enabled then connectViaTls answers address else connectViaSocket answers address

/-- How the loop of `dx_connect_to_resolved_addresses` ends: behind its last address or at a
connection, or in a call that fails. -/
inductive LoopEnd
  | left
  | failed
  deriving DecidableEq

/-- The attempts for the current address. -/
def NetworkContext.attempts (context : NetworkContext E) (curAddr : ExtAddress E)
    (properties : Content) (tried : List (ℕ × Bool)) : List (Attempt E) :=
  tried.map fun (infoIndex, accepted) =>
    ⟨context.addrContext.curAddrIndex, infoIndex, curAddr.toAddress, properties, accepted⟩

/-- The connection after the attempts for the current address. -/
def NetworkContext.visited (context : NetworkContext E) (properties : Content)
    (curAddr : ExtAddress E) : NetworkContext E :=
  { backUpProperties context with properties := properties }.setCurrent curAddr

/-- The loop of `dx_connect_to_resolved_addresses`, with fuel for the addresses that are left. -/
def connectLoop (answers : ℕ → ℕ → Bool) :
    ℕ → NetworkContext E → NetworkContext E × List (Attempt E) × LoopEnd
  | 0, context => (context, [], .left)
  | fuel + 1, context =>
      match context.currentAddress with
      | none => (context, [], .left)
      | some curAddr =>
          if curAddr.isConnectionFailed then connectLoop answers fuel context.nextAddress
          else
            match addCredentials curAddr.toAddress (backUpProperties context).properties with
            | none => (backUpProperties context, [], .failed)
            | some properties =>
                let r := connectViaAddress (answers context.addrContext.curAddrIndex) curAddr
                let attempts := context.attempts curAddr properties r.1
                let context := context.visited properties r.2
                if r.1.any (·.2) then ({ context with status := .connected }, attempts, .left)
                else
                  let later := connectLoop answers fuel context.nextAddress
                  (later.1, attempts ++ later.2.1, later.2.2)

/-- `dx_connect_to_resolved_addresses`: the attempts, and if there is a connection. -/
def connectToResolvedAddresses (answers : ℕ → ℕ → Bool) (context : NetworkContext E) :
    NetworkContext E × List (Attempt E) × Bool :=
  let ctx := context.addrContext
  match connectLoop answers (ctx.elements.length - ctx.curAddrIndex) context with
  | (context, attempts, .failed) => (context, attempts, false)
  | (context, attempts, .left) =>
      if context.addrContext.curAddrIndex = context.addrContext.elements.length then
        (context, attempts, false)
      else ({ context with socket := true }, attempts, true)

end DxFeed.Network
