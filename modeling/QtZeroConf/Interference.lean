import QtZeroConf.Avahi.Frame
import QtZeroConf.Bonjour.Frame

open reactive

namespace qtzeroconf

/-- Services do not interfere exactly when their keys are different texts. On
    the Avahi backends this is all there is to it; on Bonjour it holds of the
    runs in which no address lists one service under the key of the other. -/
theorem services_apart_iff (backend : avahi.Backend) (p q : avahi.Service) (p' q' : bonjour.Service) :
    (avahi.Apart backend p q ↔
      ¬ KeysCollide (QString.fromUtf8 q.1) q.2.toInt (QString.fromUtf8 p.1) p.2.toInt) ∧
    (bonjour.Apart p'.pair q'.pair ↔
      ¬ KeysCollide (QString.fromUtf8 q'.1) q'.2.toNat (QString.fromUtf8 p'.1) p'.2.toNat) := by
  rw [← serviceKey_eq_iff, ← serviceKey_eq_iff]
  exact ⟨avahi.apart_iff_key_ne backend p q, bonjour.apart_iff_key_ne p' q'⟩

/-- The service "a1" on interface 2 is found and resolved; then "a", on
    interface 12, goes away. -/
def otherServiceRemoved : List avahi.Event :=
  let report : avahi.AvahiResolverEvent :=
    .AVAHI_RESOLVER_FOUND { host_name := [0x68], address := .ipv4 0x0A000001, port := 80, txt := [] }
  [.startBrowser true (tcpType 0x61) .IPv4Protocol,
    .browse true 2 .AVAHI_PROTO_INET .AVAHI_BROWSER_NEW [0x61, 0x31] reportedType reportedDomain,
    .resolve 2 report [0x61, 0x31] reportedType reportedDomain,
    .browse true 12 .AVAHI_PROTO_INET .AVAHI_BROWSER_REMOVE [0x61] reportedType reportedDomain]

/-- Both services have the key "a12": the one that goes away takes the entry of
    the other one along. -/
theorem other_service_removed :
    let p : avahi.Service := ([0x61, 0x31], 2)
    let q : avahi.Service := ([0x61], 12)
    p ≠ q ∧
      ((avahi.reached (.avahiclient true) (otherServiceRemoved.take 3)).services[p.key]?.map
        fun zcs => zcs.m_name) = some (QString.fromUtf8 p.1) ∧
      ¬ avahi.Apart (.avahiclient true) p q := by
  have hbefore : ((avahi.reached (.avahiclient true) (otherServiceRemoved.take 3)).services[
      avahi.Service.key ([0x61, 0x31], 2)]?.map fun zcs => zcs.m_name) =
      some (QString.fromUtf8 [0x61, 0x31]) := by decide
  have hafter : ((avahi.reached (.avahiclient true) otherServiceRemoved).services[
      avahi.Service.key ([0x61, 0x31], 2)]?.map fun zcs => zcs.m_name) = none := by decide
  refine ⟨by decide, hbefore, fun hapart => ?_⟩
  have hentry := ((hapart otherServiceRemoved).2.2.2.1 rfl).services
  have hsame := congrArg (Option.map fun zcs => zcs.m_name) hentry
  exact absurd (hbefore.symm.trans (hsame.symm.trans hafter)) (by decide)

end qtzeroconf
