import PipeBlocks.Expander

/-! Settings, as a configuration file or a command line gives them. -/
namespace PipeBlocks

structure Config where
  namePrefix : Text := []
  debug : Bool := false
  /-- Patterns to exclude, as given: empty and repeated ones are dropped later. -/
  exclude : List Text := []
  svelteKitDefaults : Bool := false
deriving DecidableEq, Repr

namespace Config

def options (c : Config) : Options := ⟨c.namePrefix, c.debug⟩

/-- The exclusion list: SvelteKit's patterns first, if wanted, then the given ones. -/
def exclusions (c : Config) : Exclusions :=
  (if c.svelteKitDefaults then Exclusions.svelteKit else .empty).insertAll c.exclude

def expander (c : Config) : Expander := ⟨c.options, c.exclusions⟩

end Config

end PipeBlocks
