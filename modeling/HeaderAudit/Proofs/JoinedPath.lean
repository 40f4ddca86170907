import HeaderAudit.Path.Basic

/-!
# JoinedPath — one path written behind another

`Path.join directory p` writes a slash and `p` behind a directory.  `segments_join` says that the
segments of the two stand one behind the other, whatever slashes there are at the seam, so joining
can be described without looking at bytes.
-/

namespace HeaderAudit
namespace Path

def join (directory p : Path) : Path :=
  ⟨directory.bytes ++ slash :: p.bytes⟩

theorem pieces_join (directory p : Path) :
    (directory.join p).pieces = directory.pieces ++ p.pieces :=
  List.splitOn_append_cons_self directory.bytes p.bytes

theorem segments_join (directory p : Path) :
    (directory.join p).segments = directory.segments ++ p.segments := by
  simp [segments, pieces_join]

/-- What is written behind an absolute path is absolute. -/
theorem isAbsolute_join {directory : Path} (h : directory.isAbsolute) (p : Path) :
    (directory.join p).isAbsolute := by
  cases hbytes : directory.bytes with
  | nil => simp [isAbsolute, hbytes] at h
  | cons b rest => simpa [isAbsolute, join, hbytes] using h

end Path
end HeaderAudit
