import PipeBlocks.Text.Basic

/-! Path exclusions.

An exclusion list holds texts; a path that contains one of them is left alone.
Inserting keeps the order of first insertion, and ignores empty texts, which
would match every path, and repetitions. -/
namespace PipeBlocks

structure Exclusions where
  patterns : List Text := []
deriving DecidableEq, Repr

namespace Exclusions

def empty : Exclusions := {}

def insert (e : Exclusions) (pattern : Text) : Exclusions :=
  if pattern = [] ∨ pattern ∈ e.patterns then e else ⟨e.patterns ++ [pattern]⟩

def insertAll (e : Exclusions) (patterns : List Text) : Exclusions := patterns.foldl insert e

def ofList (patterns : List Text) : Exclusions := empty.insertAll patterns

/-- What the SvelteKit tools generate. -/
def svelteKitPatterns : List Text :=
  [".svelte-kit/".toList, "node_modules/".toList, "generated/".toList, "root.svelte".toList]

def svelteKit : Exclusions := ofList svelteKitPatterns

/-- The first pattern that occurs in the path. -/
def firstMatch? (e : Exclusions) (path : Text) : Option Text :=
  e.patterns.find? (·.occursIn path)

def excludes (e : Exclusions) (path : Text) : Bool := (e.firstMatch? path).isSome

def isEmpty (e : Exclusions) : Bool := e.patterns.isEmpty

/-! ### Building a list step by step -/

/-- One step in the life of an exclusion list. -/
inductive Step where
  | clear
  | svelteKit
  | replace (patterns : List Text)
  | insert (pattern : Text)
  | insertAll (patterns : List Text)
deriving DecidableEq, Repr

def apply (e : Exclusions) : Step → Exclusions
  | .clear => empty
  | .svelteKit => Exclusions.svelteKit
  | .replace patterns => ofList patterns
  | .insert pattern => e.insert pattern
  | .insertAll patterns => e.insertAll patterns

def run (e : Exclusions) (steps : List Step) : Exclusions := steps.foldl apply e

end Exclusions

end PipeBlocks
