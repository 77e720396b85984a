import PipeBlocks.Log.Directive

/-! Which log entries are shown.

A filter is a list of directives. Of those that apply to an entry the most
specific one decides: that of the longest target, of these one that asks for a
field, of these the one whose field name is greatest, and of equals the last. -/
namespace PipeBlocks.Log

abbrev Filter := List Directive

namespace Filter

/-- The texts between commas. -/
def parts : Text → List Text
  | [] => [[]]
  | c :: r => if c = ',' then [] :: parts r else (parts r).modifyHead (c :: ·)

/-- Reads directives between commas; none at all show errors only. -/
def parse? (t : Text) : Option Filter :=
  match ((parts t).filter (· ≠ [])).mapM Directive.parse? with
  | some [] => some [{ level := some .error }]
  | directives => directives

/-- The program's own entries, down to warnings or, if verbose, to debugging. -/
def standard (verbose : Bool) : Filter :=
  [{ target := Entry.programTarget, level := some (if verbose then .debug else .warn) }]

/-- The filter that a setting asks for, or the standard one if it asks for none. -/
def ofSetting (setting : Option Text) (verbose : Bool) : Filter :=
  (setting.bind parse?).getD (standard verbose)

/-- The directive that decides about an entry. -/
def directive? (f : Filter) (e : Entry) : Option Directive :=
  (f.filter (·.appliesTo e)).foldl (fun best d =>
    match best with
    | some b => if d.overrules b then some d else best
    | none => some d) none

def shows (f : Filter) (e : Entry) : Bool := (f.directive? e).any (·.shows e)

end Filter

end PipeBlocks.Log
