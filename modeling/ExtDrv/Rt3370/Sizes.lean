import Mathlib.Data.BitVec

/-!
# Sizes of fixed arrays

A numeral below the size of an array is an index of it. The sizes of the driver's
arrays are not zero.
-/

namespace ExtDrv.Rt3370

-- words and rounds, TIDs, stations, table entries and sequence numbers
scoped instance neZero4 : NeZero 4 := ⟨by decide⟩
scoped instance neZero8 : NeZero 8 := ⟨by decide⟩
scoped instance neZero16 : NeZero 16 := ⟨by decide⟩
scoped instance neZero32 : NeZero 32 := ⟨by decide⟩
scoped instance neZero128 : NeZero 128 := ⟨by decide⟩
scoped instance neZero4096 : NeZero 4096 := ⟨by decide⟩

end ExtDrv.Rt3370
