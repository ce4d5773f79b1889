import SpawnGuard.Main
import SpawnGuard.Files.Tree
import SpawnGuard.Machine.Host
import SpawnGuard.Machine.Message
import SpawnGuard.Machine.Run
import SpawnGuard.Machine.Signature
import SpawnGuard.Proofs.Answers
import SpawnGuard.Proofs.Arrivals
import SpawnGuard.Proofs.Labels
import SpawnGuard.Tile.Checker
import SpawnGuard.Tile.MemoryGrid
import SpawnGuard.Tile.World
import SpawnGuard.Proofs.GuardedCode
import SpawnGuard.Proofs.GuardedRun
import SpawnGuard.Proofs.GuardContract
import SpawnGuard.Proofs.ReadBodies
import SpawnGuard.Proofs.GuardBypass
import SpawnGuard.Proofs.OccupierSpawn
import SpawnGuard.Proofs.RepairSubscription
import SpawnGuard.Proofs.LiquidNotifications
import SpawnGuard.Proofs.PatchedText
import SpawnGuard.Proofs.StackedGuards
import SpawnGuard.Proofs.SoundRuns
import SpawnGuard.Proofs.RenamedLabels
import SpawnGuard.Proofs.ReplayBlocks
import SpawnGuard.Proofs.GridLedger
import SpawnGuard.Proofs.TileRegistrations
import SpawnGuard.Proofs.AdmittedWorlds
import SpawnGuard.Proofs.WrittenBatches
import SpawnGuard.Proofs.InsertedGuards
import SpawnGuard.Proofs.NotificationOrder
import SpawnGuard.Proofs.ReportedErrors
import SpawnGuard.Proofs.StepLimits
import SpawnGuard.Proofs.EventLogs
import SpawnGuard.Proofs.IntegerWords
import SpawnGuard.Proofs.ParameterLists
import SpawnGuard.Proofs.FreshLabels
import SpawnGuard.Proofs.LabelViews
import SpawnGuard.Proofs.LineLayouts
import SpawnGuard.Proofs.GateGuards
