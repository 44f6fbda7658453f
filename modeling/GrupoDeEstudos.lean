import GrupoDeEstudos.Prime.PyMath
import GrupoDeEstudos.Prime.Machine
import GrupoDeEstudos.Verif.Float
import GrupoDeEstudos.Verif.Termination
import GrupoDeEstudos.Verif.Invariant
import GrupoDeEstudos.Verif.Factorization
import GrupoDeEstudos.Verif.Errors
import GrupoDeEstudos.Verif.Undershoot
import GrupoDeEstudos.Verif.Residual
import GrupoDeEstudos.Sql.Functions
import GrupoDeEstudos.Sql.Registry
import GrupoDeEstudos.Verif.SqlFunctions
import GrupoDeEstudos.Verif.Registry
