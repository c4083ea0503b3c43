/-
Whose name the replies of a UDP association carry.
-/
import BigRocket.Lib.History
import BigRocket.Service.SocksUdpTheorems
import BigRocket.Service.UdpAssociate

namespace BigRocket.Service

open Lib BondingSocksServer Option

/-! ## The label of a reply -/

section Label

variable {names : InetNames} {host : Text} {port : Nat} {payload datagram : List UInt8}
  {peer : InetSocketAddress}

theorem encodeSocksUdp_ofNat (names : InetNames) (host : Text) (port : Nat)
    (payload : List UInt8) :
    encodeSocksUdp names host port payload =
      encodeSocksUdp names host (UInt16.ofNat port).toNat payload := by
  have hlow : (UInt16.ofNat port).toNat = port % 65536 := UInt16.toNat_ofNat'
  have hhigh : (port % 65536) >>> 8 &&& 0xFF = port >>> 8 &&& 0xFF := by
    rw [Nat.shiftRight_eq_div_pow, Nat.shiftRight_eq_div_pow,
      show (0xFF : Nat) = 2 ^ 8 - 1 from rfl, Nat.and_two_pow_sub_one_eq_mod,
      Nat.and_two_pow_sub_one_eq_mod]
    omega
  have hrest : port % 65536 &&& 0xFF = port &&& 0xFF := by
    rw [show (0xFF : Nat) = 2 ^ 8 - 1 from rfl, Nat.and_two_pow_sub_one_eq_mod,
      Nat.and_two_pow_sub_one_eq_mod]
    omega
  rw [encodeSocksUdp, encodeSocksUdp, hlow, hhigh, hrest]

def CarriesOrigin (names : InetNames) (h : Handed) : Prop :=
  encodeSocksUdp names (names.hostAddress h.peer.address) h.peer.port.toNat h.payload =
    some h.datagram

theorem encodeSocksUdp_eq_iff (h : encodeSocksUdp names host port payload = some datagram) :
    encodeSocksUdp names (names.hostAddress peer.address) peer.port.toNat payload =
        some datagram ↔
      names.getByName host = some peer.address ∧ UInt16.ofNat port = peer.port := by
  rw [encodeSocksUdp_ofNat, encodeSocksUdp] at h
  obtain ⟨a, ha, rfl⟩ := map_eq_some_iff.mp h
  rw [encodeSocksUdp, names.getByName_hostAddress, map_some, ha]
  constructor
  · intro heq
    have hread := congrArg (decodeSocksUdp names) (Option.some.inj heq)
    rw [decodeSocksUdp_address, decodeSocksUdp_address, port_of_bytes, port_of_bytes] at hread
    have hdecoded := Option.some.inj hread
    have hhost := congrArg DecodedUdp.host hdecoded
    have hport := congrArg DecodedUdp.port hdecoded
    have haddress : some peer.address = some a := by
      rw [← names.getByName_hostAddress, ← names.getByName_hostAddress]
      exact congrArg names.getByName hhost
    exact ⟨haddress.symm, (UInt16.toNat_inj.mp hport).symm⟩
  · rintro ⟨hpeer, hport⟩
    rw [Option.some.inj hpeer, hport]

end Label

namespace UdpAssociate

variable {ν : Type} {names : InetNames} {s : Association ν} {e : Event ν}

/-! ## What a step hands to the client -/

structure Reply where
  host : Text
  port : Nat
  clientAddr : InetSocketAddress
  peer : InetSocketAddress
  payload : List UInt8

namespace Reply

variable (names : InetNames) (x : Reply)

def handed : Option Handed :=
  (encodeSocksUdp names x.host x.port x.payload).map fun datagram =>
    { clientAddr := x.clientAddr, datagram, peer := x.peer, payload := x.payload }

/-- The peer is the destination, if the name of the destination leads anywhere. -/
def FromDestination : Prop :=
  ∀ a ∈ names.getByName x.host, a = x.peer.address ∧ UInt16.ofNat x.port = x.peer.port

theorem carriesOrigin_iff : (∀ h ∈ x.handed names, CarriesOrigin names h) ↔
    x.FromDestination names := by
  unfold handed FromDestination
  cases hencoded : encodeSocksUdp names x.host x.port x.payload with
  | none =>
    have hname : names.getByName x.host = none := by
      rw [encodeSocksUdp, map_eq_none_iff] at hencoded
      exact hencoded
    rw [hname]
    simp
  | some datagram =>
    obtain ⟨a, ha, -⟩ := map_eq_some_iff.mp hencoded
    simp only [map_some, mem_some, forall_eq', CarriesOrigin, ha]
    rw [encodeSocksUdp_eq_iff hencoded, ha, Option.some.injEq]

end Reply

def replyOf (names : InetNames) (s : Association ν) : Event ν → Option Reply
  | .packet p =>
    if s.ended = false ∧ p.checkedAt - s.lastActivity < udpIdleTimeoutMs ∧
        s.aetherAssociation ∧ p.handSucceeds then
      (decodeSocksUdp names p.data).bind fun decoded =>
      p.received.bind fun incoming =>
      (AetherUpstream.parseReply incoming.data).map fun payload =>
        { host := decoded.host, port := decoded.port, clientAddr := p.fromAddr,
          peer := incoming.peer, payload }
    else none
  | .hands i succeeds =>
    if s.ended = false ∧ succeeds then
      s.receivers[i]?.bind fun r =>
      r.resp.map fun resp =>
        { host := r.host, port := r.port, clientAddr := r.clientAddr, peer := resp.peer,
          payload := resp.data }
    else none
  | _ => none

@[simp] theorem handed_unpin : s.unpin.handed = s.handed := rfl

@[simp] theorem handed_finish : s.finish.handed = s.handed := rfl

@[simp] theorem handed_hand (h : Handed) : (s.hand h).handed = s.handed ++ [h] := rfl

variable (p : Packet ν) (i : Nat) (decoded : DecodedUdp)

@[simp] theorem handed_setReceiver (r : Receiver) :
    (s.setReceiver i r).handed = s.handed := rfl

/-! The pinned socket: nothing is handed on by the loop itself. -/

theorem handed_checkPin : (s.checkPin p).handed = s.handed := by
  unfold Association.checkPin
  split
  · rfl
  · split_ifs <;> rfl

theorem handed_withPin {p : Packet ν} {decoded : DecodedUdp} {pinned : Association ν}
    (h : s.withPin p decoded = some pinned) : pinned.handed = s.handed := by
  unfold Association.withPin at h
  split at h
  · cases h
    rfl
  · split at h
    · cases h
    · split_ifs at h
      cases h
      rfl

theorem handed_sendPinned : (s.sendPinned p decoded).handed = s.handed := by
  unfold Association.sendPinned
  split
  · rfl
  · split_ifs <;> rfl

theorem handed_throughPin : (s.throughPin p decoded).handed = s.handed := by
  unfold Association.throughPin
  split
  · exact handed_checkPin p
  · rename_i pinned hpinned
    rw [handed_sendPinned, handed_withPin hpinned, handed_checkPin]

/-! Through Aether the loop hands on what has come back. -/

theorem handed_throughAether :
    (s.throughAether names p decoded).handed = s.handed ++
      (if p.handSucceeds then
        p.received.bind fun incoming =>
        (AetherUpstream.parseReply incoming.data).bind fun payload =>
          Reply.handed names { host := decoded.host, port := decoded.port,
                               clientAddr := p.fromAddr, peer := incoming.peer, payload }
      else none).toList := by
  have hsent : ∀ out : List Sent,
      (if p.sendSucceeds then { s with sent := s.sent ++ out } else s).handed = s.handed := by
    intro out
    split <;> rfl
  unfold Association.throughAether
  cases p.received with
  | none => simp [hsent]
  | some incoming =>
    cases hpayload : AetherUpstream.parseReply incoming.data with
    | none => simp [hsent, hpayload]
    | some payload =>
      cases hdatagram : encodeSocksUdp names decoded.host decoded.port payload with
      | none => simp [hsent, hpayload, hdatagram, Reply.handed]
      | some datagram =>
        cases p.handSucceeds <;> simp [hsent, hpayload, hdatagram, Reply.handed]

theorem handed_handOn (succeeds : Bool) :
    (s.handOn names i succeeds).handed = s.handed ++
      ((replyOf names s (.hands i succeeds)).bind (Reply.handed names)).toList := by
  unfold Association.handOn replyOf
  cases hr : s.receivers[i]? with
  | none => simp [hr]
  | some r =>
    cases hresp : r.resp with
    | none => simp [hr, hresp]
    | some resp =>
      cases hdatagram : encodeSocksUdp names r.host r.port resp.data with
      | none =>
        split_ifs <;> simp [hr, hresp, Reply.handed, hdatagram]
      | some datagram =>
        simp only [hresp, hdatagram]
        split_ifs <;> simp [hr, hresp, Reply.handed, hdatagram]

theorem handed_receive (resp : Incoming) : (s.receive i resp).handed = s.handed := by
  unfold Association.receive
  split
  · rfl
  · split <;> rfl

theorem handed_failReceiver : (s.failReceiver i).handed = s.handed := by
  unfold Association.failReceiver
  split <;> rfl

theorem handed_turn (checkedAt : Int) (body : Association ν) :
    (s.turn checkedAt body).handed =
      if s.ended = false ∧ checkedAt - s.lastActivity < udpIdleTimeoutMs then body.handed
      else s.handed := by
  unfold Association.turn
  by_cases hended : s.ended = true
  · simp [hended]
  · by_cases hidle : checkedAt - s.lastActivity < udpIdleTimeoutMs
    · simp [hended, hidle]
    · simp [hended, hidle]

theorem handed_takePacket :
    (s.takePacket names p).handed = s.handed ++
      (if s.aetherAssociation ∧ p.handSucceeds then
        (decodeSocksUdp names p.data).bind fun decoded =>
        p.received.bind fun incoming =>
        (AetherUpstream.parseReply incoming.data).bind fun payload =>
          Reply.handed names { host := decoded.host, port := decoded.port,
                               clientAddr := p.fromAddr, peer := incoming.peer, payload }
      else none).toList := by
  unfold Association.takePacket
  cases decodeSocksUdp names p.data with
  | none => simp
  | some decoded =>
    simp only
    by_cases haether : s.aetherAssociation = true
    · rw [if_pos haether, handed_throughAether]
      simp [haether]
    · rw [if_neg haether, handed_throughPin]
      simp [haether]

theorem handed_step (e : Event ν) :
    (s.step names e).handed = s.handed ++
      ((replyOf names s e).bind (Reply.handed names)).toList := by
  cases e with
  | packet p =>
    rw [Association.step, handed_turn, handed_takePacket]
    simp only [replyOf]
    by_cases hruns : s.ended = false ∧ p.checkedAt - s.lastActivity < udpIdleTimeoutMs
    · rw [if_pos hruns]
      by_cases hhands : s.aetherAssociation = true ∧ p.handSucceeds = true
      · simp [hruns, hhands, bind_assoc, bind_map]
      · rw [if_neg hhands, if_neg fun h => hhands h.2.2]
        simp
    · rw [if_neg hruns, if_neg fun h => hruns ⟨h.1, h.2.1⟩]
      simp
  | quiet checkedAt =>
    rw [Association.step, handed_turn, ite_self]
    simp [replyOf]
  | receiveFails =>
    unfold Association.step replyOf
    split_ifs <;> simp
  | repin => simp [Association.step, replyOf]
  | receives i resp => simp [Association.step, replyOf, handed_receive]
  | hands i succeeds => exact handed_handOn i succeeds
  | receiverFails i => simp [Association.step, replyOf, handed_failReceiver]

/-! ## A whole association -/

/-- The peer whose datagram the step hands on, if it hands on one, is the
destination that the association holds it for. -/
def PeerIsDestination (names : InetNames) (s : Association ν) (e : Event ν) : Prop :=
  ∀ x ∈ replyOf names s e, x.FromDestination names

def run (names : InetNames) (aetherAssociation : Bool) (now : Int) (events : List (Event ν)) :
    Association ν :=
  exec (Association.step names) (opened aetherAssociation now) events

theorem carriesOrigin_step (e : Event ν) :
    (∀ h ∈ (s.step names e).handed, CarriesOrigin names h) ↔
      (∀ h ∈ s.handed, CarriesOrigin names h) ∧ PeerIsDestination names s e := by
  rw [handed_step, List.forall_mem_append]
  refine and_congr_right fun _ => ?_
  unfold PeerIsDestination
  cases replyOf names s e with
  | none => simp
  | some x => simpa [mem_toList] using x.carriesOrigin_iff names

theorem carriesOrigin_iff_peerIsDestination (names : InetNames) (aetherAssociation : Bool)
    (now : Int) (events : List (Event ν)) :
    (∀ h ∈ (run names aetherAssociation now events).handed, CarriesOrigin names h) ↔
      AlongRun (fun before e => PeerIsDestination names (run names aetherAssociation now before) e)
        events := by
  induction events using List.reverseRecOn with
  | nil => simp [run, opened]
  | append_singleton events e ih =>
    rw [alongRun_concat, ← ih, run, exec_concat, carriesOrigin_step]
    rfl

def plainPacket (data : List UInt8) (fromAddr : InetSocketAddress) (resolvedAddr : InetAddress) :
    Packet Unit where
  checkedAt := 0
  receivedAt := 0
  data := data
  fromAddr := fromAddr
  received := none
  isCurrent _ := true
  pickBestNetwork := some ()
  bindSucceeds := true
  resolvedAddr := some resolvedAddr
  sendSucceeds := true
  handSucceeds := true

def loopback : InetAddress := ⟨[127, 0, 0, 1], .inl rfl⟩

def firstPeer : InetAddress := ⟨[1, 2, 3, 4], .inl rfl⟩

def secondPeer : InetAddress := ⟨[5, 6, 7, 8], .inl rfl⟩

def twoPeers : List (Event Unit) :=
  [.packet (plainPacket [0, 0, 0, 1, 1, 2, 3, 4, 0, 53, 7] ⟨loopback, 9000⟩ firstPeer),
   .packet (plainPacket [0, 0, 0, 1, 5, 6, 7, 8, 0, 54, 7] ⟨loopback, 9000⟩ secondPeer),
   .receives 0 ⟨⟨secondPeer, 54⟩, [9]⟩,
   .hands 0 true]

theorem secondPeer_takenForFirst :
    (run bytewise false 0 twoPeers).handed.map (fun h =>
        (h.peer.address.bytes, h.peer.port.toNat, h.datagram)) =
      [([5, 6, 7, 8], 54, [0, 0, 0, 1, 1, 2, 3, 4, 0, 53, 9])] := by
  decide +kernel

end UdpAssociate

end BigRocket.Service
