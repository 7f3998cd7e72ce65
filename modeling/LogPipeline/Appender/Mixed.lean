/-
Appenders of the library beside appenders of the application. The
application's own act on a state of their own and cannot reach the
registry; the library's act on the registry alone.
-/
import LogPipeline.Appender.Build

namespace LogPipeline

/-- An appender of the library, or one of the application's kind `C`. -/
inductive MixedAppender (C : Type) where
  | managed (a : Appender)
  | custom (c : C)

/-- What both kinds act on. -/
structure Host (K : Type) where
  registry : Registry Devices
  extension : K

namespace MixedAppender

variable {C K : Type}

/-- Both kinds under one interface. -/
def ops (custom : AppenderOps C K) : AppenderOps (MixedAppender C) (Host K) where
  name
    | managed a => Appender.ops.name a
    | .custom c => custom.name c
  filter
    | managed a => Appender.ops.filter a
    | .custom c => custom.filter c
  enter call a h :=
    match a with
    | managed _ => h
    | .custom c => { h with extension := custom.enter call c h.extension }
  isHeld call a h :=
    match a with
    | managed _ => false
    | .custom c => custom.isHeld call c h.extension
  finish call a h :=
    match a with
    | managed a =>
      let (o, r) := Appender.ops.finish call a h.registry
      (o, { h with registry := r })
    | .custom c =>
      let (o, k) := custom.finish call c h.extension
      (o, { h with extension := k })
  drop a h :=
    match a with
    | managed a =>
      let (reports, r) := Appender.ops.drop a h.registry
      (reports, { h with registry := r })
    | .custom c =>
      let (reports, k) := custom.drop c h.extension
      (reports, { h with extension := k })

end MixedAppender

end LogPipeline
