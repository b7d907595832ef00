import PopulationSearch.AntSystem.Search
import PopulationSearch.ColonySystem.Search
import PopulationSearch.Differential.Search
import PopulationSearch.Genetic.Search
import PopulationSearch.Swarm.Search
import PopulationSearch.Vector.Landscape
import PopulationSearch.Proofs.Chance
import PopulationSearch.Proofs.Wheel
import PopulationSearch.Proofs.Grid
import PopulationSearch.Proofs.Tour
import PopulationSearch.Proofs.Walk
import PopulationSearch.Proofs.NearestNeighbour
import PopulationSearch.Proofs.Choice
import PopulationSearch.Proofs.Colony
import PopulationSearch.Proofs.Calls
import PopulationSearch.Proofs.ColonySystem
import PopulationSearch.Proofs.AntSystem
import PopulationSearch.Proofs.Feasibility
import PopulationSearch.Proofs.Crossover
import PopulationSearch.Proofs.Breeding
import PopulationSearch.Proofs.Progress
import PopulationSearch.Proofs.GeneticSearch
import PopulationSearch.Proofs.TrailLaw
import PopulationSearch.Proofs.Standing
import PopulationSearch.Proofs.DifferentialSearch
import PopulationSearch.Proofs.SwarmSearch
import PopulationSearch.Proofs.Bookkeeping
import PopulationSearch.Proofs.Order
import PopulationSearch.Proofs.Doubles
import PopulationSearch.Proofs.Optimum
import PopulationSearch.Proofs.TourOptimum
import PopulationSearch.Proofs.VectorOptimum
import PopulationSearch.Proofs.Unheard
import PopulationSearch.Proofs.ReportedBest
import PopulationSearch.Proofs.Agreement
import PopulationSearch.Proofs.Twins
import PopulationSearch.Proofs.Comparisons
import PopulationSearch.Proofs.GivenUp
import PopulationSearch.Proofs.Arithmetic
import PopulationSearch.Proofs.Box
import PopulationSearch.Proofs.DoubleLaws
import PopulationSearch.Proofs.Draws
import PopulationSearch.Proofs.Magnitudes
import PopulationSearch.Proofs.Rounding
import PopulationSearch.Proofs.Rejections
import PopulationSearch.Proofs.VectorFeasibility
import PopulationSearch.Proofs.Lengths
import PopulationSearch.Proofs.Deposits
import PopulationSearch.Proofs.Exact
import PopulationSearch.Proofs.Corridor
import PopulationSearch.Proofs.Reliability
import PopulationSearch.Proofs.Verdicts
import PopulationSearch.Proofs.Exploitation
import PopulationSearch.Proofs.Rescaling
import PopulationSearch.Proofs.RescaledColonies
import PopulationSearch.Proofs.Units
import PopulationSearch.Proofs.Reversal
import PopulationSearch.Proofs.Sectors
import PopulationSearch.Proofs.Pairing
import PopulationSearch.Proofs.Quotients
import PopulationSearch.Proofs.Reciprocals
import PopulationSearch.Proofs.Usability
import PopulationSearch.Proofs.ChoiceRules
import PopulationSearch.Proofs.Trials
import PopulationSearch.Proofs.Relabelling
import PopulationSearch.Proofs.Tables
import PopulationSearch.Proofs.Chronicle
import PopulationSearch.Proofs.TourForms
import PopulationSearch.Proofs.Chains
import PopulationSearch.Proofs.Mutation
import PopulationSearch.Proofs.Permutations
