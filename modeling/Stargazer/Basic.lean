import Mathlib.Data.BitVec
import Mathlib.Data.Finset.Basic
import Mathlib.Data.Rat.Defs
import Mathlib.Data.Fintype.Pi

set_option relaxedAutoImplicit false
set_option autoImplicit false

/-!
# Data shared by the modules of the server

Addresses, times, traffic counters, privileges and the settings the modelled functions read.

Addresses are the `uint32_t` of the source in network byte order, as a little-endian host holds
them; `0` means "no address" throughout.  `time_t` is an integer, money is a rational number
(the source has `double`), traffic counters are 64-bit words that wrap around.

## Main definitions

* `Stargazer.DirTraff` — one counter for each direction (`include/stg/user_traff.h`).
* `Stargazer.IPMask`, `Stargazer.UserIPs` — address lists (`include/stg/user_ips.h`).
* `Stargazer.Priv` — privileges of an administrator (`include/stg/admin_conf.h`).
* `Stargazer.Settings` — the settings read by the user and traffic code.
-/

namespace Stargazer

/-- An IPv4 address in network byte order. -/
abbrev IP := BitVec 32

/-- `time_t`. -/
abbrev Time := ℤ

/-- Amounts of money and of prepaid traffic, taken as exact numbers. -/
abbrev Money := ℚ

/-- A user record of the server, identified by its position in the list of users. -/
abbrev UserId := ℕ

/-- An authorizer. -/
abbrev AuthId := ℕ

/-- `DIR_NUM`: the number of traffic directions. -/
abbrev dirNum : ℕ := 10

/-- A traffic direction that can be billed. -/
abbrev Dir := Fin dirNum

/-- Traffic counters, one for each direction. -/
abbrev DirTraff := Dir → BitVec 64

/-- The two ends of a flow: the uploading user has the source address of its packets, the
downloading user the destination address. -/
inductive Side
  /-- The uploader. -/
  | up
  /-- The downloader. -/
  | down
  deriving DecidableEq

instance : Fintype Side := ⟨{.up, .down}, fun d => by cases d <;> decide⟩

/-- `NO_TARIFF_NAME`. -/
def noTariffName : String := "*_NO_TARIFF_*"

/-- The fields of `struct tm` that the modelled functions read. -/
structure Tm where
  /-- Hours, `0..23`. -/
  hour : ℤ
  /-- Minutes, `0..59`. -/
  min : ℤ
  /-- Day of the month, `1..31`. -/
  mday : ℤ
  /-- Month, `0..11`. -/
  mon : ℤ
  /-- Years since 1900. -/
  year : ℤ
  deriving DecidableEq

/-! ## Addresses -/

/-- `htonl` on a little-endian host: the four bytes in reverse order. -/
def htonl (x : BitVec 32) : BitVec 32 :=
  x.extractLsb' 0 8 ++ x.extractLsb' 8 8 ++ x.extractLsb' 16 8 ++ x.extractLsb' 24 8

/-- `inet_ntostring`: the dotted form, lowest byte of the word first. -/
def inetNtoString (ip : IP) : String :=
  toString (ip.extractLsb' 0 8).toNat ++ "." ++ toString (ip.extractLsb' 8 8).toNat ++ "." ++
    toString (ip.extractLsb' 16 8).toNat ++ "." ++ toString (ip.extractLsb' 24 8).toNat

/-- An address with a prefix length. -/
structure IPMask where
  /-- The address. -/
  ip : IP
  /-- The prefix length, `0..32`. -/
  mask : ℕ
  deriving DecidableEq

/-- The addresses a user may come from. -/
abbrev UserIPs := List IPMask

namespace UserIPs

/-- `UserIPs::calcMask`.  What `0xFFffFFff << 32` is, C leaves undefined: here it is `shifted`. -/
def calcMask (shifted : BitVec 32) (msk : ℕ) : BitVec 32 :=
  if msk > 32 then 0
  else htonl (if msk = 0 then shifted else BitVec.allOnes 32 <<< (32 - msk))

/-- `UserIPs::find`: does the address belong to the list?  A first entry without an address
stands for `*` and matches everything. -/
def find (shifted : BitVec 32) (ips : UserIPs) (ip : IP) : Bool :=
  match ips with
  | [] => false
  | im :: _ =>
    if im.ip = 0 then true
    else List.any ips fun im =>
      (ip &&& calcMask shifted im.mask) == (im.ip &&& calcMask shifted im.mask)

/-- `UserIPs::onlyOneIP`. -/
def onlyOneIP (ips : UserIPs) : Bool :=
  match ips with
  | [im] => im.mask == 32 && im.ip != 0
  | _ => false

/-- `UserIPs::isAnyIP`. -/
def isAnyIP (ips : UserIPs) : Bool :=
  match ips with
  | [] => false
  | im :: _ => im.ip == 0

/-- `UserIPs::parse("*")`. -/
def any : UserIPs := [⟨0, 0⟩]

end UserIPs

/-! ## Privileges -/

/-- The privileges of an administrator, two bits each. -/
structure Priv where
  /-- Change statistics. -/
  userStat : BitVec 16
  /-- Change configuration. -/
  userConf : BitVec 16
  /-- Change the balance. -/
  userCash : BitVec 16
  /-- Change passwords. -/
  userPasswd : BitVec 16
  /-- Add and delete users. -/
  userAddDel : BitVec 16
  /-- Change administrators. -/
  adminChg : BitVec 16
  /-- Change tariffs. -/
  tariffChg : BitVec 16
  /-- Change services. -/
  serviceChg : BitVec 16
  /-- Change corporations. -/
  corpChg : BitVec 16
  deriving DecidableEq

/-- `Priv::Priv(uint32_t)`: the nine two-bit fields of a word. -/
def Priv.ofWord (p : BitVec 32) : Priv where
  userStat := ((p &&& 0x3) >>> 0x0).setWidth 16
  userConf := ((p &&& 0xC) >>> 0x2).setWidth 16
  userCash := ((p &&& 0x30) >>> 0x4).setWidth 16
  userPasswd := ((p &&& 0xC0) >>> 0x6).setWidth 16
  userAddDel := ((p &&& 0x300) >>> 0x8).setWidth 16
  adminChg := ((p &&& 0xC00) >>> 0xA).setWidth 16
  tariffChg := ((p &&& 0x3000) >>> 0xC).setWidth 16
  serviceChg := ((p &&& 0xC000) >>> 0xE).setWidth 16
  corpChg := ((p &&& 0x30000) >>> 0x10).setWidth 16

/-- The check of `UserPropertyLogged::Set`: may an administrator with privileges `p` change the
property `name`? -/
def Priv.maySet (p : Priv) (name : String) (isStat isPassword : Bool) : Bool :=
  (p.userConf ≠ 0 && !isStat) || (p.userStat ≠ 0 && isStat) ||
    (p.userPasswd ≠ 0 && isPassword) || (p.userCash ≠ 0 && name == "cash")

/-- The privileges of the administrators built into the server (`@stargazer`, `NO-ADMIN`). -/
def Priv.full : Priv := Priv.ofWord 0xFFFF

/-- The server itself may change every property of a user, whatever its kind. -/
theorem Priv.maySet_full (name : String) (isStat isPassword : Bool) :
    Priv.full.maySet name isStat isPassword = true := by
  have hc : Priv.full.userConf ≠ 0#16 := by decide
  have hs : Priv.full.userStat ≠ 0#16 := by decide
  cases isStat <;> simp [Priv.maySet, hc, hs]

/-! ## Settings -/

/-- The settings the modelled functions read. -/
structure Settings where
  /-- `GetStatWritePeriod`, in seconds. -/
  statWritePeriod : ℤ
  /-- `GetFreeMbAllowInet`. -/
  freeMbAllowInet : Bool
  /-- `GetShowFeeInCash`. -/
  showFeeInCash : Bool
  /-- `GetWriteFreeMbTraffCost`. -/
  writeFreeMbTraffCost : Bool
  /-- `GetDisableSessionLog`. -/
  disableSessionLog : Bool
  /-- `GetReconnectOnTariffChange`. -/
  reconnectOnTariffChange : Bool
  /-- `GetFeeChargeType`, `0..3`. -/
  feeChargeType : ℕ
  /-- `GetFullFee`. -/
  fullFee : Bool
  deriving DecidableEq

end Stargazer
