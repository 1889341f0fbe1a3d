import QtZeroConf.AvahiCommon.ServiceName
import QtZeroConf.AvahiCommon.Strlst

namespace qtzeroconf.avahi

def AVAHI_DNS_TYPE_A : UInt16 := 0x01
def AVAHI_DNS_TYPE_NS : UInt16 := 0x02
def AVAHI_DNS_TYPE_CNAME : UInt16 := 0x05
def AVAHI_DNS_TYPE_PTR : UInt16 := 0x0C
def AVAHI_DNS_TYPE_HINFO : UInt16 := 0x0D
def AVAHI_DNS_TYPE_TXT : UInt16 := 0x10
def AVAHI_DNS_TYPE_AAAA : UInt16 := 0x1C
def AVAHI_DNS_TYPE_SRV : UInt16 := 0x21
def AVAHI_DNS_TYPE_ANY : UInt16 := 0xFF

def AVAHI_DNS_CLASS_IN : UInt16 := 0x01
def AVAHI_DNS_CLASS_ANY : UInt16 := 0xFF

def AVAHI_DNS_CACHE_FLUSH : UInt16 := 0x8000
def AVAHI_DNS_UNICAST_RESPONSE : UInt16 := 0x8000

def AVAHI_DEFAULT_TTL : UInt32 := 75 * 60

/-- `AvahiKey`. -/
structure AvahiKey where
  name : CString
  clazz : UInt16
  type : UInt16
  deriving DecidableEq

/-- The members of the data union of an `AvahiRecord`. -/
inductive RDataKind where
  | generic
  | srv
  | ptr
  | hinfo
  | txt
  | a
  | aaaa
  deriving DecidableEq

/-- The member of the union that a record of a type uses: the cases of every
    switch on it. -/
def rdataKind (type : UInt16) : RDataKind :=
  if type = AVAHI_DNS_TYPE_PTR ∨ type = AVAHI_DNS_TYPE_CNAME ∨ type = AVAHI_DNS_TYPE_NS then .ptr
  else if type = AVAHI_DNS_TYPE_SRV then .srv
  else if type = AVAHI_DNS_TYPE_HINFO then .hinfo
  else if type = AVAHI_DNS_TYPE_TXT then .txt
  else if type = AVAHI_DNS_TYPE_A then .a
  else if type = AVAHI_DNS_TYPE_AAAA then .aaaa
  else .generic

/-- The data union of an `AvahiRecord`. Addresses are in network order. -/
inductive RData where
  | generic (data : QByteArray)
  | srv (priority weight port : UInt16) (name : CString)
  | ptr (name : CString)
  | hinfo (cpu os : CString)
  | txt (string_list : AvahiStringList)
  | a (address : Vector UInt8 4)
  | aaaa (address : Vector UInt8 16)
  deriving DecidableEq

def RData.kind : RData → RDataKind
  | generic _ => .generic
  | srv _ _ _ _ => .srv
  | ptr _ => .ptr
  | hinfo _ _ => .hinfo
  | txt _ => .txt
  | a _ => .a
  | aaaa _ => .aaaa

/-- `AvahiRecord`, with the member of the union that belongs to its type. -/
structure AvahiRecord where
  key : AvahiKey
  ttl : UInt32
  data : RData
  typed : data.kind = rdataKind key.type
  deriving DecidableEq

/-- `avahi_normalize_name_strdup`, whose null is the error of a name that is not
    valid. -/
def avahi_normalize_name_strdup (s : CString) : Except NameFailure CString :=
  normalized AVAHI_ERR_INVALID_DOMAIN_NAME (avahi_normalize_name AVAHI_DOMAIN_NAME_MAX s)

/-- `avahi_key_new`. -/
def avahi_key_new (name : CString) (clazz type : UInt16) : Except NameFailure AvahiKey := do
  let name ← avahi_normalize_name_strdup name
  return { name, clazz, type }

/-- What `avahi_record_new` makes of a TTL. -/
def recordTtl (ttl : UInt32) : UInt32 := if ttl ≠ 0xFFFFFFFF then ttl else AVAHI_DEFAULT_TTL

/-- `avahi_key_is_valid`. -/
def avahi_key_is_valid (k : AvahiKey) : Bool := avahi_is_valid_domain_name k.name

/-- `avahi_record_is_valid`. -/
def avahi_record_is_valid (r : AvahiRecord) : Bool :=
  if !avahi_key_is_valid r.key then false
  else
    match r.data with
    | .ptr name => avahi_is_valid_domain_name name
    | .srv _ _ _ name => avahi_is_valid_domain_name name
    | .hinfo cpu os => os.length ≤ 255 && cpu.length ≤ 255
    | .txt string_list => string_list.all fun text => !(255 < text.length || text.length = 0)
    | .a _ | .aaaa _ | .generic _ => true

end qtzeroconf.avahi
