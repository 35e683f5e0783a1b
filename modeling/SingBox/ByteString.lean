/-
This file names the instance by which membership in a list of byte strings is decided.
-/

import Mathlib

namespace SingBox.ByteString

scoped instance lawfulBEq : LawfulBEq (List UInt8) := inferInstance

end SingBox.ByteString
