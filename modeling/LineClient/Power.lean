/-!
# Powers

The powers of natural numbers and integers are those of core Lean, whatever else is imported.
-/

namespace LineClient

attribute [instance(20000)] instPowNat

attribute [default_instance 20000] instPowNat

end LineClient
