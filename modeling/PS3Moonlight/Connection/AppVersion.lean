/-!
This module contains the version of the host's streaming software, which decides about the variant
of the protocol.
-/

namespace Connection

structure AppVersionQuad where
  major : Int
  minor : Int
  patch : Int
  build : Int
  deriving DecidableEq, Repr

namespace AppVersionQuad

/- `APP_VERSION_AT_LEAST` -/
def atLeast (v : AppVersionQuad) (a b c : Int) : Bool :=
  v.major > a || (v.major == a && v.minor > b)
    || (v.major == a && v.minor == b && v.patch ≥ c)

/- `IS_SUNSHINE` -/
def isSunshine (v : AppVersionQuad) : Bool :=
  v.build < 0

end AppVersionQuad
end Connection
