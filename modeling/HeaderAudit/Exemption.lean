import HeaderAudit.Path.Relative

/-!
# Exemption — files that owe no notice

Some files keep a header of their own and are named in a list.  A listed path stands for every
spelling of its route.  With a root, absolute paths are first seen from that root, so that a list of
relative paths also covers the same files named absolutely.

This file defines `Exemptions`, its construction from paths, and `Exemptions.covers`.
`mem_routes_ofPaths` says what a list contains, and `nodup_routes_ofPaths` that its size counts
distinct routes.
-/

namespace HeaderAudit

structure Exemptions where
  routes : List Route
  root : Option Route
deriving DecidableEq, Repr

namespace Exemptions

def ofPaths (paths : List Path) : Exemptions :=
  ⟨paths.foldr (fun p routes => routes.insert p.route) [], none⟩

/-- The same list, with absolute paths seen from the given root. -/
def under (e : Exemptions) (root : Path) : Exemptions :=
  { e with root := some root.route }

def size (e : Exemptions) : Nat :=
  e.routes.length

def isEmpty (e : Exemptions) : Bool :=
  e.routes.isEmpty

/-- The route to look up for a path, if the root leaves one. -/
def lookupRoute? (e : Exemptions) (p : Path) : Option Route :=
  match e.root with
  | none => some p.route
  | some root => root.relativeTo p.route

def covers (e : Exemptions) (p : Path) : Bool :=
  (e.lookupRoute? p).any fun route => e.routes.contains route

/-- The files that are exempt unless another list is given, relative to the working directory. -/
def standardPaths : List String :=
  [".pre-commit-config.yaml",
    "package.json",
    "package-lock.json",
    "language-configuration.json",
    "extension/external/psList.ts",
    "extension/server/RpcServer.ts",
    "extension/logging.ts",
    "esbuild.mjs",
    "eslint.config.mjs",
    ".vscode-test.mjs"]

def standard : Exemptions :=
  ofPaths (standardPaths.map Path.ofString)

theorem mem_routes_ofPaths {paths : List Path} {route : Route} :
    route ∈ (ofPaths paths).routes ↔ ∃ p ∈ paths, p.route = route := by
  induction paths with
  | nil => simp [ofPaths]
  | cons p paths ih =>
      have hstep : (ofPaths (p :: paths)).routes = (ofPaths paths).routes.insert p.route := rfl
      rw [hstep, List.mem_insert_iff, ih]
      simp [eq_comm]

theorem nodup_routes_ofPaths (paths : List Path) : (ofPaths paths).routes.Nodup := by
  induction paths with
  | nil => exact List.nodup_nil
  | cons p paths ih =>
      have hstep : (ofPaths (p :: paths)).routes = (ofPaths paths).routes.insert p.route := rfl
      rw [hstep, List.insert]
      split
      · exact ih
      · rename_i h
        exact List.nodup_cons.2 ⟨by simpa using h, ih⟩

theorem covers_iff {e : Exemptions} {p : Path} :
    e.covers p ↔ ∃ route ∈ e.routes, e.lookupRoute? p = some route := by
  unfold covers
  cases e.lookupRoute? p <;> simp

end Exemptions
end HeaderAudit
