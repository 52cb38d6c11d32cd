import Mathlib

/-!
# Column values and errors of the persistence layer

* A `DECIMAL(20, 10)` column is an integer number of `10⁻¹⁰` currency units, so that sums and
  differences are exact.
* `Timestamp` is a `TIMESTAMPTZ` column in microseconds.
* `Text.trim` and `Text.isControl` are string operations of the input checks, over the Unicode
  classes of the source language.
* `DbError` keeps the variants the modelled functions return, with their texts.
-/

namespace KeyCompute

/-- `to_be_bytes` of a number of the given width in bytes. -/
def beBytes (width n : Nat) : List UInt8 :=
  (List.range width).reverse.map fun i => UInt8.ofNat (n / 256 ^ i % 256)

/-- A 128-bit identifier. -/
structure Uuid where
  bits : BitVec 128
  deriving DecidableEq

namespace Uuid

instance (n : Nat) : OfNat Uuid n := ⟨⟨BitVec.ofNat 128 n⟩⟩

/-- `Uuid::nil()`. -/
def nil : Uuid := ⟨0⟩

def isNil (u : Uuid) : Bool := decide (u = nil)

/-- The 32 lower-case hexadecimal digits of the identifier. -/
def hexDigits (u : Uuid) : List Char :=
  let digits := Nat.toDigits 16 u.bits.toNat
  List.replicate (32 - digits.length) '0' ++ digits

/-- The hyphenated form `8-4-4-4-12`. -/
protected def toString (u : Uuid) : String :=
  let group (start len : Nat) : String := String.ofList ((u.hexDigits.drop start).take len)
  "-".intercalate [group 0 8, group 8 4, group 12 4, group 16 4, group 20 12]

instance : ToString Uuid := ⟨Uuid.toString⟩

/-- There are finitely many identifiers, so that one can add up over all of them. -/
noncomputable scoped instance finite : Fintype Uuid :=
  Fintype.ofInjective (fun u : Uuid => u.bits.toFin) fun u v h => by
    cases u
    cases v
    exact congrArg Uuid.mk (BitVec.eq_of_toFin_eq h)

def asBytes (u : Uuid) : List UInt8 := beBytes 16 u.bits.toNat

end Uuid

abbrev Timestamp := ℤ

/-- `rust_decimal::Decimal::MAX`, in units of `10⁻¹⁰`. -/
def decimalMax : ℤ := (2 ^ 96 - 1) * 10 ^ 10

namespace Text

/-- `char::is_whitespace`: the Unicode property `White_Space`. -/
def isWhitespace (c : Char) : Bool :=
  let n := c.toNat
  (9 ≤ n && n ≤ 13) || n == 0x20 || n == 0x85 || n == 0xA0 || n == 0x1680 ||
    (0x2000 ≤ n && n ≤ 0x200A) || n == 0x2028 || n == 0x2029 || n == 0x202F ||
    n == 0x205F || n == 0x3000

/-- `char::is_control`: the Unicode category `Cc`. -/
def isControl (c : Char) : Bool :=
  let n := c.toNat
  n ≤ 0x1F || (0x7F ≤ n && n ≤ 0x9F)

def trim (s : String) : String :=
  String.ofList (((s.toList.dropWhile isWhitespace).reverse.dropWhile isWhitespace).reverse)

/-- `str::as_bytes`. -/
def bytes (s : String) : List UInt8 := s.toUTF8.data.toList

/-- SQL `BTRIM`, which removes spaces only. -/
def btrim (s : String) : String :=
  String.ofList (((s.toList.dropWhile (· = ' ')).reverse.dropWhile (· = ' ')).reverse)

end Text

/-- `keycompute_db::DbError`, as far as the modelled functions return it.  A decimal inside
an error is kept as the value whose text the source prints. -/
inductive DbError where
  | notFound (entity id : String)
  | insufficientBalance (required available : ℤ)
  | invalidOrderStatus (expected actual : String)
  | userTenantMismatch (userId requestedTenantId actualTenantId : Uuid)
  /-- an error reported by the database itself, such as a violated constraint -/
  | databaseError (message : String)
  | resourceLimitExceeded (resource limit : String)
  | duplicateKey (entity field value : String)
  | optimisticConflict (entity id : String)
  | other (message : String)
  /-- a failed `expect`: the call unwinds and its transaction is dropped -/
  | panicked (message : String)
  deriving DecidableEq

def DbError.isInsufficientBalance : DbError → Bool
  | .insufficientBalance _ _ => true
  | _ => false

def DbError.isNotFound : DbError → Bool
  | .notFound _ _ => true
  | _ => false

/-- The wallet owner `(tenant_id, user_id)`. -/
structure Principal where
  tenantId : Uuid
  userId : Uuid
  deriving DecidableEq

end KeyCompute
