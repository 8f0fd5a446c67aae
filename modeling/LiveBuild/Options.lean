/-
# Toolchain options

The options of a compiler are handed to its toolchain unchanged and in order,
behind one flag that is always there.
-/

namespace LiveBuild

/-- The flag that comes before every caller's options. -/
def verboseFlag : String := "--verbose"

/-- The options that a caller chose. -/
structure Options where
  chosen : List String
  deriving DecidableEq, Repr, Inhabited

namespace Options

/-- No options. -/
def none : Options := ⟨[]⟩

/-- One option more. -/
def withOption (o : Options) (option : String) : Options := ⟨o.chosen ++ [option]⟩

/-- Several options more. -/
def withOptions (o : Options) (options : List String) : Options := ⟨o.chosen ++ options⟩

/-- What the toolchain is given: the flag, then the caller's options. -/
def effective (o : Options) : List String := verboseFlag :: o.chosen

end Options
end LiveBuild
