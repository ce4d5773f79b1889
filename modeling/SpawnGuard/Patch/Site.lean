import SpawnGuard.Patch.Pattern

/-!
Patch sites: where a pattern matched, and the guard put in front of it. The guard calls a hook
and leaves the method if the hook says so; otherwise it jumps to a fresh label on the matched
instruction and the code goes on as before.
-/
namespace SpawnGuard

/-- A place at which a pattern was found. It keeps the pattern, so that the edit can look again
at the body it is applied to. -/
structure PatchSite where
  index : Nat
  pattern : Pattern
  deriving DecidableEq, Repr

namespace PatchSite

def locate? (body : Body) (pattern : Pattern) : Option PatchSite :=
  (pattern.find? body.code).map fun index => ⟨index, pattern⟩

/-- `call hook; brfalse.s label; ret`. -/
def guard (hook : String) (label : Label) : Code Label :=
  [⟨.call, .method hook, []⟩, ⟨.brfalseS, .label label, []⟩, ⟨.ret, .none, []⟩]

def labelHead (label : Label) : Code Label → Code Label
  | [] => []
  | ins :: rest => { ins with labels := ins.labels ++ [label] } :: rest

def guarded (code : Code Label) (index : Nat) (hook : String) (label : Label) : Code Label :=
  code.take index ++ guard hook label ++ labelHead label (code.drop index)

/-- Puts the guard at the site, with a fresh label, unless the pattern no longer matches there. -/
def insertGuard (site : PatchSite) (hook : String) (body : Body) :
    Except Overflow (Option (Label × Body)) :=
  if site.pattern.matchesAt body.code site.index then
    match body.defineLabel with
    | .error overflow => .error overflow
    | .ok (label, body) =>
      .ok (some (label, { body with code := guarded body.code site.index hook label }))
  else .ok none

end PatchSite

end SpawnGuard
