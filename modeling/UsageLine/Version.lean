/-!
# Version

The version of this library.  It stands apart from the rest, so that a program
that asks for nothing else needs no other module.
-/

namespace UsageLine

def version : String := "0.1.0"

end UsageLine
