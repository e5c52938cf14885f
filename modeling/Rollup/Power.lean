/-
# Powers of whole numbers

The powers of natural numbers and integers are those of the core library,
whichever other powers are in scope, so a power means the same in every module.
-/

attribute [instance (20000), default_instance (20000)] instPowNat
