import ChatCommands.Resolve.Entity
import ChatCommands.Resolve.Numeric
import ChatCommands.Resolve.Textual

/-!
# The standard resolvers

The table with a resolver for every type of the library.
-/

namespace ChatCommands

namespace Resolve

/-- A resolver that takes its value from input and is not asked without. -/
def fromInput (run : Slot → Supply → Except CommandError Value × Supply) : Resolver :=
  ⟨.input, false, run⟩

/-- A resolver that is asked for optional parameters even without input. -/
def orAbsent (origin : Origin) (run : Slot → Supply → Except CommandError Value × Supply) :
    Resolver :=
  ⟨origin, true, run⟩

/-- Every type of the library with its resolver. -/
def standardEntries : List (ParamType × Resolver) :=
  [(.integer .w8, fromInput integer),
   (.integer .w16, fromInput integer),
   (.integer .w32, fromInput integer),
   (.integer .w64, fromInput integer),
   (.float32, fromInput float),
   (.float64, fromInput float),
   (.number, fromInput float),
   (.decimal, fromInput decimal),
   (.string, fromInput string),
   (.strings, fromInput strings),
   (.anyEnum, fromInput enumeration),
   (.bool, fromInput bool),
   (.guild, orAbsent .issuer guild),
   (.user, orAbsent .issuerUnlessOther user),
   (.member, orAbsent .issuerUnlessOther member),
   (.channel, orAbsent .issuerUnlessOther channel),
   (.role, orAbsent .input role),
   (.mentionable, orAbsent .input mentionable),
   (.emoji, orAbsent .input emoji)]

end Resolve

/-- The standard resolvers, without enumerations. -/
def ResolverTable.standard : ResolverTable :=
  ⟨Resolve.standardEntries, Dict.empty⟩

/-- The standard resolvers with declared enumerations. -/
def ResolverTable.withEnums (enums : List (String × List String)) : ResolverTable :=
  enums.foldl (fun t enum => t.declareEnum enum.1 enum.2) .standard

end ChatCommands
