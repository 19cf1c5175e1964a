import AbstractSql.Proofs.Outline.Closures
import AbstractSql.Proofs.Outline.Naming

/-!
# Definitions of closure tables in front of a statement

Definitions travel up from wherever a closure is asked for. In front of the whole statement there is
one for each of these relations, each refers only to itself and to those before it, and the
statement refers to none that is not there.
-/

namespace AbstractSql

variable {catalog : Catalog}

end AbstractSql
