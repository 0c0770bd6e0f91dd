import EmbToolkit.Packages

/-! The recorded symbol list of a package as a set of words. -/

namespace EmbToolkit.Proofs.Signature
open MakeText
variable {w : Workspace} {c : Config}

end EmbToolkit.Proofs.Signature
