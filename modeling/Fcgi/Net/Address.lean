import Fcgi.Lib.Prog
import Fcgi.Base.Exceptions

/-!
# Net — addresses

`Ip_address` and `Socket_address`.  The conversion of texts, `::inet_pton`, belongs to the
system: it is a parameter, and a text is valid for a family when `::inet_pton` converts it.
-/

namespace Fcgi
open Lib

/-- `AF_UNSPEC`, `AF_UNIX`, `AF_INET` and `AF_INET6`. -/
inductive AddressFamily where
  | unspec
  | unix
  | inet
  | inet6
  deriving DecidableEq, Repr

/-- What `::inet_pton` makes of a text: an address of `n` bytes (a positive result), nothing
(zero), or an error (a negative result). -/
inductive Pton (n : Nat) where
  | address (bytes : Vector UInt8 n)
  | invalid
  | error
  deriving DecidableEq, Repr

/-- `::inet_pton`, for each of the two families. -/
structure InetPton where
  inet : List UInt8 → Pton 4
  inet6 : List UInt8 → Pton 16

/-- The bytes of an ASCII text. -/
def bytesOf (text : String) : List UInt8 := text.toList.map Char.toUInt8

/-- A system where `127.0.0.1` is the only text of an address. -/
def InetPton.loopback : InetPton where
  inet text := if text = bytesOf "127.0.0.1" then .address #v[127, 0, 0, 1] else .invalid
  inet6 _ := .invalid

/-- `str.c_str()` as a C function sees it: it ends at the first zero. -/
def cStr (str : List UInt8) : List UInt8 := str.takeWhile (· ≠ 0)

/-- `std::variant<::in_addr, ::in6_addr>` -/
inductive IpBinary where
  | inAddr (bytes : Vector UInt8 4)
  | in6Addr (bytes : Vector UInt8 16)
  deriving DecidableEq, Repr

/-- An IP address. -/
structure IpAddress where
  isValid_ : Bool := false
  binary_ : IpBinary := .inAddr (Vector.replicate 4 0)
  deriving DecidableEq, Repr

namespace IpAddress

/-- A new instance from text representation: the first of the two families that takes it. -/
def fromText (pton : InetPton) (str : List UInt8) : Except Exception IpAddress :=
  let failed : Exception := .net
    "cannot convert text representation of IP address to numeric representation"
  match pton.inet (cStr str) with
  | .error => .error failed
  | .address bytes => .ok { isValid_ := true, binary_ := .inAddr bytes }
  | .invalid =>
    match pton.inet6 (cStr str) with
    | .error => .error failed
    | .address bytes => .ok { isValid_ := true, binary_ := .in6Addr bytes }
    | .invalid => .ok {}

/-- `family()`. -/
def family (ip : IpAddress) : AddressFamily :=
  if ip.isValid_ then
    match ip.binary_ with
    | .inAddr _ => .inet
    | .in6Addr _ => .inet6
  else .unspec

end IpAddress

/-! ### Ports -/

/-- `htons(static_cast<unsigned short>(port))`: the two bytes of the field, the high one first. -/
def htons (port : Int) : Vector UInt8 2 :=
  #v[UInt8.ofNat ((port % 65536).toNat / 256), UInt8.ofNat ((port % 65536).toNat % 256)]

/-- The port that a field in network byte order holds. -/
def ntohs (field : Vector UInt8 2) : Int := field[0].toNat * 256 + field[1].toNat

/-- A port of two bytes is read back. -/
theorem ntohs_htons (port : Int) : ntohs (htons port) = port % 65536 := by
  have h₀ : (htons port)[0].toNat = (port % 65536).toNat / 256 := by
    simp only [htons, Vector.getElem_mk, List.getElem_toArray, List.getElem_cons_zero,
      UInt8.toNat_ofNat']
    omega
  have h₁ : (htons port)[1].toNat = (port % 65536).toNat % 256 := by
    simp only [htons, Vector.getElem_mk, List.getElem_toArray, List.getElem_cons_succ,
      List.getElem_cons_zero, UInt8.toNat_ofNat']
    omega
  rw [ntohs, h₀, h₁]
  omega

/-- Only the ports of 16 bits come back. -/
theorem ntohs_htons_eq_iff {port : Int} (hport : 0 < port) :
    ntohs (htons port) = port ↔ port < 65536 := by
  rw [ntohs_htons]
  omega

/-! ### Socket addresses -/

/-- `std::variant<::sockaddr_un, ::sockaddr_in, ::sockaddr_in6>`; the flow information and the
scope of the last are always zero. -/
inductive SocketAddress where
  | un (sunFamily : AddressFamily) (sunPath : List UInt8)
  | in_ (sinPort : Vector UInt8 2) (sinAddr : Vector UInt8 4)
  | in6 (sin6Port : Vector UInt8 2) (sin6Addr : Vector UInt8 16)
  deriving DecidableEq, Repr

namespace SocketAddress

/-- The size of `sockaddr_un::sun_path`. -/
def sunPathSize : Nat := 108

/-- `Socket_address(ip, port)`.  An address of neither family leaves the variant as it was
initialised: a `sockaddr_un` of zeroes. -/
def ofIp (ip : IpAddress) (port : Int) : SocketAddress :=
  if ip.family = .inet ∨ ip.family = .inet6 then
    match ip.binary_ with
    | .inAddr bytes => .in_ (htons port) bytes
    | .in6Addr bytes => .in6 (htons port) bytes
  else .un .unspec (List.replicate sunPathSize 0)

/-- `Socket_address(path)`: the path, cut at its first zero and filled up with zeroes. -/
def ofPath (path : List UInt8) : Except Exception SocketAddress :=
  if path.length ≤ sunPathSize - 1 then
    .ok (.un .unix (cStr path ++ List.replicate (sunPathSize - (cStr path).length) 0))
  else .error (.net "UDS path too long")

/-- The family that the system finds in the address. -/
def saFamily : SocketAddress → AddressFamily
  | .un fam _ => fam
  | .in_ _ _ => .inet
  | .in6 _ _ => .inet6

/-- The IP address in the address. -/
def ip : SocketAddress → Option IpBinary
  | .un _ _ => none
  | .in_ _ bytes => some (.inAddr bytes)
  | .in6 _ bytes => some (.in6Addr bytes)

/-- The field of the port in the address. -/
def port : SocketAddress → Option (Vector UInt8 2)
  | .un _ _ => none
  | .in_ field _ => some field
  | .in6 field _ => some field

end SocketAddress

end Fcgi
