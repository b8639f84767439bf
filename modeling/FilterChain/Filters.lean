import FilterChain.Filters.Amount
import FilterChain.Filters.Date
import FilterChain.Filters.Nested

/-!
# The built-in operations
-/

namespace FilterChain.Filters

def builtins : List Operation :=
  textOperations ++ amountOperations ++ dateOperations ++ nestedOperations

end FilterChain.Filters
