import DapBridge.Path

/-!
# The host's file tree

Paths the adapter is given are looked up on the machine it runs on: a breakpoint's file is
keyed by its canonical path when the file exists, and a unix socket that no one listens on
refuses a connection when something is at its path, but is missing otherwise.

A host is given by its file tree: the entries it has, each under its absolute path, every
other path missing. `hostTree` is the tree of the machine the adapter was recorded on, a Linux
host with a merged `/usr` (`/bin`, `/sbin`, `/lib` and `/lib64` are links into `/usr`), as far as
lookups here go; the working directories and programs the adapter is told of are missing there.

`Path.locate` walks a path through a tree the way the system does: component by component
from the root, a link replaced by its target (read against the link's directory when it is
relative), at most `maxLinks` links in all. A file stops the walk when more follows it, and
so does a final slash after it. `Path.canonical?` is where the walk ends, without links, dots
or doubled and final slashes; `Path.real` falls back to the path itself when there is none.
-/

namespace DapBridge

namespace Path

/-- What is at a path of the host. -/
inductive Node where
  | directory
  | file
  | link (target : String)
  deriving Inhabited, DecidableEq

/-- The entries of the host's file tree, each under its absolute path. -/
def hostTree : List (String × Node) :=
  let dirs (ps : List String) : List (String × Node) := ps.map (·, .directory)
  let files (ps : List String) : List (String × Node) := ps.map (·, .file)
  dirs ["/", "/boot", "/dev", "/etc", "/home", "/media", "/mnt", "/opt", "/proc", "/root", "/run", "/srv",
      "/sys", "/tmp", "/usr", "/var", "/dev/shm", "/dev/pts", "/run/lock", "/etc/default", "/etc/ssl"]
    ++ dirs ["/usr/bin", "/usr/games", "/usr/include", "/usr/lib", "/usr/lib64", "/usr/libexec", "/usr/local",
      "/usr/sbin", "/usr/share", "/usr/src", "/usr/local/bin", "/usr/local/etc", "/usr/local/games",
      "/usr/local/include", "/usr/local/lib", "/usr/local/sbin", "/usr/local/share", "/usr/local/src",
      "/usr/share/doc", "/usr/share/man"]
    ++ dirs ["/var/backups", "/var/cache", "/var/lib", "/var/local", "/var/log", "/var/mail", "/var/opt",
      "/var/spool", "/var/tmp"]
    ++ [("/bin", .link "usr/bin"), ("/sbin", .link "usr/sbin"), ("/lib", .link "usr/lib"),
      ("/lib64", .link "usr/lib64"), ("/var/run", .link "/run"), ("/var/lock", .link "/run/lock"),
      ("/usr/local/man", .link "share/man"), ("/etc/os-release", .link "../usr/lib/os-release"),
      ("/dev/fd", .link "/proc/self/fd"), ("/dev/stdin", .link "/proc/self/fd/0"),
      ("/dev/stdout", .link "/proc/self/fd/1"), ("/dev/stderr", .link "/proc/self/fd/2")]
    ++ files ["/etc/passwd", "/etc/group", "/etc/hosts", "/etc/hostname", "/etc/resolv.conf", "/etc/shadow",
      "/etc/fstab", "/etc/shells", "/etc/profile", "/etc/bash.bashrc", "/etc/nsswitch.conf",
      "/usr/lib/os-release", "/dev/null", "/dev/zero", "/dev/random", "/dev/urandom", "/dev/tty",
      "/dev/full", "/dev/ptmx", "/usr/bin/env", "/usr/bin/sh", "/usr/bin/bash", "/usr/bin/ls",
      "/usr/bin/cat"]

/-- The entry of a file tree at an absolute path without dots or doubled slashes. -/
def entryAt? (files : List (String × Node)) (p : String) : Option Node := (files.find? (·.1 == p)).map (·.2)

/-- The most links one lookup follows. -/
def maxLinks : Nat := 40

/-- Why a lookup ends without a place. -/
inductive Miss where
  | missing
  | notDirectory
  | loop
  deriving Inhabited, DecidableEq

/-- The absolute path of components. -/
def ofComponents (cs : List String) : String := "/" ++ "/".intercalate cs

/-- Walk `todo` through the tree `files` from the directory `done` (its components, from the
root): where the walk ends and what is there. `links` more links may be followed; `fuel`
bounds the steps. -/
def walk (files : List (String × Node)) : Nat → Nat → List String → Node → List String →
    Except Miss (List String × Node)
  | 0, _, _, _, _ => .error .loop
  | _ + 1, _, done, node, [] => .ok (done, node)
  | fuel + 1, links, done, node, c :: rest =>
    if c.isEmpty || c = "." then walk files fuel links done node rest
    else if c = ".." then walk files fuel links done.dropLast .directory rest
    else
      let here := done ++ [c]
      match entryAt? files (ofComponents here) with
      | none => .error .missing
      | some .directory => walk files fuel links here .directory rest
      | some .file => if rest.isEmpty then .ok (here, .file) else .error .notDirectory
      | some (.link target) =>
        match links with
        | 0 => .error .loop
        | k + 1 =>
          let base := if isAbsolute target then [] else done
          walk files fuel k base .directory (segments target ++ rest)

/-- Look a path up in a tree, relative ones from the root: the components of the place it
names and what is there. A `..` leaves the directory the walk has reached, links followed. A
final slash asks for a directory. -/
def locate (files : List (String × Node)) (p : String) : Except Miss (List String × Node) := do
  let (cs, node) ← walk files (p.length + maxLinks * 64 + 2) maxLinks [] .directory (segments p)
  if p.endsWith "/" && node == .file then .error .notDirectory else .ok (cs, node)

/-- The canonical form of a path that names a place of the tree. -/
def canonical? (files : List (String × Node)) (p : String) : Option String :=
  match locate files p with
  | .ok (cs, _) => some (ofComponents cs)
  | .error _ => none

/-- The canonical form of a path, or the path itself when it names no place of the tree. -/
def real (files : List (String × Node)) (p : String) : String := (canonical? files p).getD p

example : real hostTree "/lib64/" = "/usr/lib64" := by decide +kernel
example : real hostTree "/w/x/" = "/w/x/" := by decide +kernel
example : real hostTree "/etc/os-release" = "/usr/lib/os-release" := by decide +kernel

end Path

end DapBridge
