import QtZeroConf.Library.Mirror
import QtZeroConf.Txt.Record

open mirror

namespace qtzeroconf

/-- The service type of a letter over TCP, such as "_a._tcp". -/
def tcpType (letter : UInt16) : QString := [0x5F, letter, 0x2E, 0x5F, 0x74, 0x63, 0x70]

/-- "_a._tcp", as it is reported. -/
def reportedType : CString := [0x5F, 0x61, 0x2E, 0x5F, 0x74, 0x63, 0x70]

/-- "local". -/
def reportedDomain : CString := [0x6C, 0x6F, 0x63, 0x61, 0x6C]

/-- A `QHostAddress`. -/
inductive QHostAddress where
  | null
  | ipv4 (address : UInt32)
  | ipv6 (address : BitVec 128)
  deriving DecidableEq

/-- `QAbstractSocket::NetworkLayerProtocol`. -/
inductive NetworkLayerProtocol where
  | IPv4Protocol
  | IPv6Protocol
  | AnyIPProtocol
  | UnknownNetworkLayerProtocol
  deriving DecidableEq

/-- The data of a discovered service; the lock that guards `m_ip` is left out. -/
structure QZeroConfServiceData where
  m_name : QString := []
  m_type : QString := []
  m_domain : QString := []
  m_host : QString := []
  m_ip : QHostAddress := .null
  m_interfaceIndex : UInt32 := 0
  m_port : UInt16 := 0
  m_txt : TxtMap := ∅

def QZeroConfServiceData.setIp (zcs : QZeroConfServiceData) (ip : QHostAddress) : QZeroConfServiceData :=
  { zcs with m_ip := ip }

/-- `QZeroConf::error_t`. -/
inductive error_t where
  | noError
  | serviceRegistrationFailed
  | serviceNameCollision
  | browserFailed
  deriving DecidableEq

/-- The signals of `QZeroConf`, over the way a backend refers to a service. -/
inductive Signal (ζ : Type) where
  | servicePublished
  | serviceNameChanged (newName : QString)
  | error (e : error_t)
  | serviceAdded (zcs : ζ)
  | serviceUpdated (zcs : ζ)
  | serviceRemoved (zcs : ζ)

/-- The service a signal carries. -/
def Signal.service? {ζ : Type} : Signal ζ → Option ζ
  | servicePublished | serviceNameChanged _ | error _ => none
  | serviceAdded zcs | serviceUpdated zcs | serviceRemoved zcs => some zcs

/-- What a signal says about the list of services, given how the key and the
    entry are read off the service it carries. -/
def Signal.notice? {ζ κ β : Type} (key : ζ → κ) (entry : ζ → β) : Signal ζ → Option (Notice κ β)
  | servicePublished | serviceNameChanged _ | error _ => none
  | serviceAdded zcs => some (.added (key zcs) (entry zcs))
  | serviceUpdated zcs => some (.updated (key zcs) (entry zcs))
  | serviceRemoved zcs => some (.removed (key zcs) (entry zcs))

/-- `name + QString::number(interface)`, under which the tables file a service. -/
def serviceKey (name : QString) (interface : Int) : QString := name ++ QString.number interface

/-- Two services whose keys are the same text: the names are equal, or one name
    goes on with characters that the other interface number starts with. -/
def KeysCollide (name₁ : QString) (interface₁ : Int) (name₂ : QString) (interface₂ : Int) : Prop :=
  ∃ digits, (name₁ = name₂ ++ digits ∧ QString.number interface₂ = digits ++ QString.number interface₁) ∨
    (name₂ = name₁ ++ digits ∧ QString.number interface₁ = digits ++ QString.number interface₂)

theorem serviceKey_eq_iff {name₁ name₂ : QString} {interface₁ interface₂ : Int} :
    serviceKey name₁ interface₁ = serviceKey name₂ interface₂ ↔
      KeysCollide name₁ interface₁ name₂ interface₂ := by
  rw [serviceKey, serviceKey, List.append_eq_append_iff]
  constructor
  · rintro (⟨digits, hname, hnumber⟩ | ⟨digits, hname, hnumber⟩)
    · exact ⟨digits, Or.inr ⟨hname, hnumber⟩⟩
    · exact ⟨digits, Or.inl ⟨hname, hnumber⟩⟩
  · rintro ⟨digits, ⟨hname, hnumber⟩ | ⟨hname, hnumber⟩⟩
    · exact Or.inr ⟨digits, hname, hnumber⟩
    · exact Or.inl ⟨digits, hname, hnumber⟩

/-- Under one name the key tells the interfaces apart. -/
theorem serviceKey_inj_interface {name : QString} {interface₁ interface₂ : Int}
    (h : serviceKey name interface₁ = serviceKey name interface₂) : interface₁ = interface₂ :=
  number_injective (List.append_cancel_left h)

end qtzeroconf
