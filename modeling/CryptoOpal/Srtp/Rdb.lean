import CryptoOpal.Srtp.Bitvector
import CryptoOpal.Srtp.Status

/-!
# The SRTCP Replay Database

`srtp_rdb_t` of `crypto/replay/rdb.c`. An SRTCP packet carries its whole
index, so this database guesses nothing; it keeps 128 bits and the index of
the first of them.

The bits are a `v128_t`. Its shift, `v128_left_shift`, is word for word the
one of a bit vector with four words, and the model uses that.

## Main definitions

* `Rdb`: The database.
* `Rdb.init`, `Rdb.check`, `Rdb.addIndex`, `Rdb.increment`: The operations.
-/

namespace CryptoOpal

namespace Srtp

/-- `rdb_bits_in_bitmask`. -/
def rdbBitsInBitmask : Nat := 128

/-- `srtp_rdb_t`. -/
structure Rdb where
  windowStart : Nat
  bitmask : Bitvector
  bits : bitmask.length = rdbBitsInBitmask
  deriving DecidableEq

namespace Rdb

/-- `srtp_rdb_init`. -/
def init : Rdb :=
  { windowStart := 0, bitmask := Bitvector.alloc rdbBitsInBitmask, bits := rfl }

/-- `srtp_rdb_check`. -/
def check (rdb : Rdb) (pIndex : Nat) : Except SrtpErrStatus Unit :=
  if rdb.windowStart + rdbBitsInBitmask ≤ pIndex then .ok ()
  else if pIndex < rdb.windowStart then .error .replayOld
  else if rdb.bitmask.getBit (pIndex - rdb.windowStart) = true then .error .replayFail
  else .ok ()

/-- `srtp_rdb_add_index`, for an index that is not before the window. -/
def addIndex (rdb : Rdb) (pIndex : Nat) : Rdb :=
  let delta := pIndex - rdb.windowStart
  if delta < rdbBitsInBitmask then
    { windowStart := rdb.windowStart
      bitmask := rdb.bitmask.setBit delta
      bits := by rw [Bitvector.length_setBit, rdb.bits] }
  else
    -- shift the window forward by delta bits
    { windowStart := rdb.windowStart + (delta - (rdbBitsInBitmask - 1))
      bitmask := (rdb.bitmask.leftShift (delta - (rdbBitsInBitmask - 1))).setBit
        (rdbBitsInBitmask - 1)
      bits := by rw [Bitvector.length_setBit, Bitvector.length_leftShift, rdb.bits] }

/-- `srtp_rdb_increment`: the next SRTCP index to send. -/
def increment (rdb : Rdb) : Except SrtpErrStatus Rdb :=
  if 0x7fffffff ≤ rdb.windowStart then .error .keyExpired
  else .ok { windowStart := rdb.windowStart + 1, bitmask := rdb.bitmask, bits := rdb.bits }

end Rdb

end Srtp

end CryptoOpal
