import Mathlib.Algebra.Ring.Nat

set_option autoImplicit false

/- Literals that definitions of several modules share. A literal carries a proof
that it is one: at least two for a number of a ring, not zero for the size of an
index. With a name for that proof it is the same term in each of these modules. -/
namespace Literals

instance five : Nat.AtLeastTwo 5 := inferInstance

instance ten : Nat.AtLeastTwo 10 := inferInstance

instance ninety : Nat.AtLeastTwo 90 := inferInstance

instance oneHundredEighty : Nat.AtLeastTwo 180 := inferInstance

instance threeHundredSixty : Nat.AtLeastTwo 360 := inferInstance

instance thousand : Nat.AtLeastTwo 1000 := inferInstance

instance buttons : NeZero 11 := inferInstance

instance axes : NeZero 16 := inferInstance

end Literals
